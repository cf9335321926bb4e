import Tabular.Config
import Tabular.Query.Failure
/-!
# Why a command fails
-/

namespace Tabular

inductive Failure
  | config (message : String)
  | io (message : String)
  | runtime (message : String)
  | query (message : String)
  | engine (error : QueryError)
deriving DecidableEq

namespace Failure

def message : Failure → String
  | .config message | .io message | .runtime message | .query message => message
  | .engine error => error.message

/-- The code of the kind of failure. -/
def code : Failure → String
  | .config _ => "FQ_CLI_CONFIG_ERROR"
  | .io _ => "FQ_CLI_IO_ERROR"
  | .runtime _ => "FQ_CLI_RUNTIME_FAILED"
  | .query _ | .engine _ => "FQ_CLI_QUERY_FAILED"

/-- The code that is reported: that of the query's error if there is one. -/
def responseCode : Failure → String
  | .engine error => error.code
  | failure => failure.code

def display (failure : Failure) : String := failure.responseCode ++ ": " ++ failure.message

def ofConfig (error : ConfigError) : Failure := .config error.message

end Failure

end Tabular
