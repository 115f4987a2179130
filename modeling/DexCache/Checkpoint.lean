import DexCache.Store.Basic
import DexCache.Time.Reader

/-!
# Checkpoints

A checkpoint is the content of the store at one time, with the block it was taken at.
One is kept for each day: the first of those with the day's greatest block.
-/

namespace DexCache

open Time (Date Timestamp)

/-- The content of the store at one time. -/
structure Checkpoint where
  date : Date
  blockNonce : UInt64
  createdAt : Timestamp
  pairs : List Pair
  tokens : List Token
deriving DecidableEq, Repr, Inhabited

namespace Checkpoint

/-- The content of a store now. -/
def capture (s : Store) (blockNonce : UInt64) (now : Int) : Checkpoint where
  date := (Timestamp.ofInstant now).date
  blockNonce := blockNonce
  createdAt := .ofInstant now
  pairs := s.pairs.all
  tokens := s.tokens.all

/-- The first pair with this address. -/
def pair? (c : Checkpoint) (address : String) : Option Pair :=
  c.pairs.find? fun p => p.address = address

/-- The first token with this identifier. -/
def token? (c : Checkpoint) (identifier : String) : Option Token :=
  c.tokens.find? fun t => t.identifier = identifier

/-- The JSON object of a checkpoint. -/
def toJson (c : Checkpoint) : Json :=
  .obj [("date", .str (String.ofList c.date.chars)),
    ("block_nonce", .ofNat c.blockNonce.toNat),
    ("created_at", .str (String.ofList c.createdAt.chars)),
    ("pairs", .arr (c.pairs.map Pair.toJson)),
    ("tokens", .arr (c.tokens.map Token.toJson))]

/-- Reads a checkpoint; that its day is the day of its time is not required. -/
def reader : Json.Reader Checkpoint :=
  .record "StateCheckpoint" (Json.FieldsReader.pure Checkpoint.mk
    |>.andField (.required "date" Date.reader)
    |>.andField (.required "block_nonce" .uint64)
    |>.andField (.required "created_at" Timestamp.reader)
    |>.andField (.required "pairs" (.list Pair.reader))
    |>.andField (.required "tokens" (.list Token.reader))) false

end Checkpoint

/-- What became of a checkpoint that was to be saved. -/
inductive CheckpointWrite where
  | written
  | discarded
deriving DecidableEq, Repr, Inhabited

/-- The name of an outcome. -/
def CheckpointWrite.name : CheckpointWrite → String
  | .written => "written"
  | .discarded => "discarded"

/-- The checkpoints that are kept, one a day, in the order of days. -/
structure CheckpointStore where
  kept : List Checkpoint := []
deriving DecidableEq, Repr, Inhabited

namespace CheckpointStore

/-- The checkpoint of a day. -/
def find? (s : CheckpointStore) (date : Date) : Option Checkpoint :=
  s.kept.find? fun c => c.date = date

/-- The checkpoint of the greatest day. -/
def latest? (s : CheckpointStore) : Option Checkpoint :=
  s.kept.getLast?

/-- Puts a checkpoint at its day, in the place of the one that was there. -/
def place (c : Checkpoint) : List Checkpoint → List Checkpoint
  | [] => [c]
  | d :: rest =>
    if d.date = c.date then c :: rest
    else if c.date.before d.date then c :: d :: rest
    else d :: place c rest

/-- Keeps a checkpoint unless its day has one of the same or a greater block. -/
def save (s : CheckpointStore) (c : Checkpoint) : CheckpointWrite × CheckpointStore :=
  match s.find? c.date with
  | some kept =>
    if c.blockNonce ≤ kept.blockNonce then (.discarded, s) else (.written, ⟨place c s.kept⟩)
  | none => (.written, ⟨place c s.kept⟩)

end CheckpointStore

end DexCache
