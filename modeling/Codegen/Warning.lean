/-!
Warnings of a run: what a caller may want to know although the run goes on.
-/
namespace Codegen

inductive Warning where
  | handlerReplaced (kind plugin former : String)
  | toolMissing (name : String)
  | codeRejected (reason : String)
  | commandFailed (reason : String)
  | unresolvedImport (described plugin file : String)
  deriving DecidableEq, Repr, Inhabited

def Warning.message : Warning → String
  | handlerReplaced kind plugin former =>
    "Handler for " ++ kind ++ " registered by " ++ plugin ++ " replaces the one from " ++ former
  | toolMissing name =>
    "Formatter " ++ name ++ " is not available, output is left unformatted"
  | codeRejected reason => "black could not format generated code: " ++ reason
  | commandFailed reason => "ruff format failed: " ++ reason
  | unresolvedImport described plugin file =>
    "Unresolved import " ++ described ++ " requested by " ++ plugin ++ " in " ++ file

end Codegen
