import Tabular.Load.Error
import Tabular.Query.Error
/-!
# Why a query fails
-/

namespace Tabular

inductive QueryError
  | unsupportedOperator (token : String)
  | parse (error : ParseError)
  | load (error : LoadError)
deriving DecidableEq

namespace QueryError

def message : QueryError → String
  | .unsupportedOperator token => "Unsupported operator: " ++ token
  | .parse error => error.message
  | .load error => error.message

def code : QueryError → String
  | .unsupportedOperator _ => "FQ_UNSUPPORTED_OPERATOR"
  | .parse error => error.code
  | .load error => error.code

end QueryError

end Tabular
