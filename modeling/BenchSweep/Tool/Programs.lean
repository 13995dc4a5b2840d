import BenchSweep.Tool.Files

/-! # Programs

    The utilities under the names that scripts call them by. -/

namespace BenchSweep.Tool

/-- The names of the shell. -/
def shellNames : List String := ["sh", "dash", "bash"]

/-- The commands that the system has as programs. -/
def programs : List (String × Utility) :=
  [("true", fun _ p => p.finish 0), ("false", fun _ p => p.finish 1), ("echo", echo false),
    ("printf", printf), ("cat", cat), ("sleep", sleep), ("touch", touch), ("rm", rm),
    ("mkdir", mkdir), ("cp", cp), ("mv", mv), ("ls", ls), ("head", head), ("tee", tee), ("wc", wc),
    ("basename", basename), ("dirname", dirname), ("seq", seq), ("pwd", pwd),
    ("printenv", printenv), ("test", test), ("[", bracket)]

/-- The commands that the shell has itself, in place of programs. -/
def builtins : List (String × Utility) :=
  [":", "set", "trap", "wait", "ulimit", "umask"].map (fun name => (name, fun _ p => p.finish 0))
  ++ [("echo", echo true), ("read", readLine), ("export", exportVariables)]
  ++ programs.filter fun u => u.1 ∈ ["true", "false", "printf", "pwd", "test", "["]

end BenchSweep.Tool
