namespace Treewalk

inductive LogLevel where
  | debug
  | trace
deriving DecidableEq

def LogLevel.name : LogLevel → String
  | .debug => "DEBUG"
  | .trace => "TRACE"

/-- What the reader or the evaluator does, for those who want to watch. -/
structure LogRecord where
  level : LogLevel
  topic : String
  message : String
deriving DecidableEq

end Treewalk
