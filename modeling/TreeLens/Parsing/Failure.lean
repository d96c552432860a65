/-!
# Parse failures
-/

namespace TreeLens

/-- Why a parser gave no tree. -/
inductive ParseFailure where
  | allocationFailed (length : Nat)
  | noResult
  | invalidEncoding
  | malformedJson (reason : String)
  | badSyntax (message : String) (line column : Nat)
deriving DecidableEq, Repr

def ParseFailure.message : ParseFailure → String
  | .allocationFailed length => "解析器内存分配失败（" ++ Nat.repr length ++ " 字节）"
  | .noResult => "解析器没有返回结果"
  | .invalidEncoding => "解析结果不是合法的 UTF-8"
  | .malformedJson reason => "解析结果不是合法的 JSON: " ++ reason
  | .badSyntax message line column =>
    "语法错误 " ++ Nat.repr line ++ ":" ++ Nat.repr column ++ ": " ++ message

end TreeLens
