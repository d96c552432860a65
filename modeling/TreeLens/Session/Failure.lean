import TreeLens.Parsing.Failure
import TreeLens.Tree.Normalize
import TreeLens.Widget.Theme

/-!
# Session failures

Everything that can go wrong between a source text and a shown tree, with the message
for each cause.
-/

namespace TreeLens

/-- A request that does not fit the state of a session. -/
inductive StateFault where
  | unknownTheme (name : String)
  | zeroPollInterval
  | notRendered
  | noSuchView (view : Nat)
  /-- A fault that something outside the session reports in its own words. -/
  | reported (text : String)
deriving DecidableEq, Repr

def StateFault.text : StateFault → String
  | .unknownTheme name => "未知主题: " ++ name ++ "（可选: " ++ ", ".intercalate Theme.names ++ "）"
  | .zeroPollInterval => "poll_interval 必须大于 0"
  | .notRendered => "语法树尚未渲染"
  | .noSuchView view => "视图节点不存在: ViewId(" ++ Nat.repr view ++ ")"
  | .reported text => text

/-- A query that gives nothing. -/
inductive QueryFault where
  | malformed
  | noMatch
  /-- A fault that something outside the session reports in its own words. -/
  | reported (text : String)
deriving DecidableEq, Repr

def QueryFault.text : QueryFault → String
  | .malformed => "路径不合语法"
  | .noMatch => "未匹配到任何节点"
  | .reported text => text

/-- A text that is no data. -/
inductive DataFault where
  | malformed
  /-- A fault that something outside the session reports in its own words. -/
  | reported (text : String)
deriving DecidableEq, Repr

def DataFault.text : DataFault → String
  | .malformed => "不符合 JSON 语法"
  | .reported text => text

/-- A file that cannot be read. -/
inductive FileFault where
  | missing
  | notText
  /-- A fault that something outside the session reports in its own words. -/
  | reported (text : String)
deriving DecidableEq, Repr

def FileFault.text : FileFault → String
  | .missing => "文件不存在"
  | .notText => "文件不是合法的 UTF-8"
  | .reported text => text

inductive Failure where
  | parse (failure : ParseFailure)
  | normalize (error : NormalizeError)
  | missingHost
  /-- The fault tells in the message alone, so it is left implicit. -/
  | json {fault : DataFault}
  | query (fault : QueryFault)
  | state (fault : StateFault)
  | file (fault : FileFault)
deriving DecidableEq, Repr

def Failure.message : Failure → String
  | .parse failure => "解析失败: " ++ failure.message
  | .normalize error => "规范化失败: " ++ error.message
  | .missingHost => "没有可挂载的宿主元素"
  | @json fault => "JSON错误: " ++ fault.text
  | .query fault => "JSONPath错误: " ++ fault.text
  | .state fault => "状态错误: " ++ fault.text
  | .file fault => "IO失败: " ++ fault.text

/-- A text that could not be read as data. -/
def Failure.malformedData : Failure :=
  @json .malformed

end TreeLens
