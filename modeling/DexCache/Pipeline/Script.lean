import DexCache.Interception.Store

/-!
# Hooks and answers given as data

Interceptors written as lists of actions, which note a text for each other, and a resolver
that gives prepared answers and records what it was asked.
-/

namespace DexCache.Pipeline

/-- What hooks leave for each other: the plan of the store, and one text. -/
structure Notes where
  plan : Option Interception.Plan := none
  text : Option String := none
deriving Repr

instance : Interception.PlanSlot Notes where
  plan? := Notes.plan
  setPlan p notes := { notes with plan := p }

/-- An action before execution. -/
inductive BeforeAction where
  /-- Drops a top-level selection, if there is one at this place. -/
  | drop (position : Nat)
  | note (text : String)
  | supply (values : Json.Object)
  | answer (data : Json.Object)
  | fail (text : String)
deriving Repr

/-- An action after execution. -/
inductive AfterAction where
  | set (key : String) (value : Json)
  /-- Takes the text that was noted and sets it under a key. -/
  | takeNote (key : String)
  | fail (text : String)
deriving Repr

/-- An interceptor of actions. -/
structure Script where
  before : List BeforeAction := []
  after : List AfterAction := []
deriving Repr

/-- Runs actions before execution. -/
def runBefore : List BeforeAction → Context Notes → Except Failure Before × Context Notes
  | [], c => (.ok .proceed, c)
  | .drop position :: rest, c =>
    runBefore rest
      { c with
        operation := { c.operation with
          selections := c.operation.selections.eraseIdx position } }
  | .note text :: rest, c =>
    runBefore rest { c with extension := { c.extension with text := some text } }
  | .supply values :: rest, c => runBefore rest { c with variableValues := values }
  | .answer data :: _, c => (.ok (.answered data), c)
  | .fail text :: _, c => (.error (.reported text), c)

/-- Sets a key of the data, if there are data. -/
def setKey (r : Response) (key : String) (value : Json) : Response :=
  { r with data := r.data.map fun data => data.insert key value }

/-- Runs actions after execution. -/
def runAfter : List AfterAction → Context Notes → Response →
    Except Failure Unit × Context Notes × Response
  | [], c, r => (.ok (), c, r)
  | .set key value :: rest, c, r => runAfter rest c (setKey r key value)
  | .takeNote key :: rest, c, r =>
    runAfter rest { c with extension := { c.extension with text := none } }
      (setKey r key (.ofText c.extension.text))
  | .fail text :: _, c, r => (.error (.reported text), c, r)

/-- The interceptor of a script. -/
def Script.interceptor {m : Type → Type} [Monad m] (s : Script) : Interceptor m Notes where
  before c := pure (runBefore s.before c)
  after c r := pure (runAfter s.after c r)

/-- A resolver of prepared answers: they are given in turn, the last one again and again;
without any, the data are empty. -/
structure Prompter where
  answers : List (Except Failure Response)
  asked : List Request := []
deriving Repr

/-- The answer whose turn it is. -/
def Prompter.current (p : Prompter) : Except Failure Response :=
  (p.answers[min p.asked.length (p.answers.length - 1)]?).getD (.ok { data := some [] })

/-- Records a request and answers it. -/
def Prompter.resolve : Resolver (StateM Prompter) := fun request p =>
  (p.current, { p with asked := p.asked ++ [request] })

end DexCache.Pipeline
