import DexCache.Network.DatabaseUrl
import DexCache.Query.Error

/-!
# Failures

What can keep a request, a read, a task or a start from its end, apart from values that
have the wrong type.
-/

namespace DexCache

/-- Why something failed. -/
inductive Failure where
  | query (cause : Query.Error)
  /-- A source could not answer a kind of read. -/
  | unavailable (read : String)
  | unknownPair (address : String)
  | feedClosed
  | checkpointsDown
  | noDatabaseUrl
  | databaseUrl (fault : Network.DatabaseUrl.Fault)
  /-- There is nothing through which processes could share leases. -/
  | noSharedLocks
  | metricsAddress (address : String)
  | graphqlRequest (endpoint : String)
  | metadataRequest (identifier : String)
  /-- The report of something outside. -/
  | reported (text : String)
  /-- What was being done when the cause came up. -/
  | during (context : String) (cause : Failure)
deriving DecidableEq, Repr

/-- The report of a failure, outer contexts first. -/
def Failure.message : Failure → String
  | .query cause => cause.message
  | .unavailable read => read ++ " unavailable"
  | .unknownPair address => "unknown pair " ++ address
  | .feedClosed => "store event channel closed"
  | .checkpointsDown => "checkpoint store down"
  | .noDatabaseUrl =>
    "DATABASE_URL must be set when database.url is empty: environment variable not found"
  | .databaseUrl fault => fault.message
  | .noSharedLocks => "Redis feature not enabled. Enable with 'redis' feature flag."
  | .metricsAddress address =>
    "invalid metrics.listen_addr " ++ address ++ ": invalid socket address syntax"
  | .graphqlRequest endpoint => "graphql request to " ++ endpoint ++ " failed"
  | .metadataRequest identifier => "metadata request for " ++ identifier ++ " failed"
  | .reported text => text
  | .during context cause => context ++ ": " ++ cause.message

end DexCache
