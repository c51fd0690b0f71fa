import Z80Debugger.Console.Program

/-!
# The executable

Reads arguments, files and lines for the console and prints its messages.  Lines are read one at a
time, so that the console can be used interactively.
-/

set_option autoImplicit false

open Z80Debugger

/-- Prints messages to the two streams. -/
def printMessages (ms : List Message) : IO Unit := do
  for m in ms do
    match m with
    | .output line => IO.println line
    | .error line => IO.eprintln line

/-- The contents of a file, if it can be read. -/
def readFile? (name : String) : IO (Option ByteArray) := do
  try
    return some (← IO.FS.readBinFile name)
  catch _ =>
    return none

/-- The files with the given names, as they are now. -/
def readFiles (names : List String) : IO Files := do
  let contents ← names.mapM fun name => return (name, ← readFile? name)
  return fun name => (contents.lookup name).join

/-- The bytes up to the next line end or the end of the input, and whether there was a line end. -/
partial def readRow (input : IO.FS.Stream) (row : Array UInt8) : IO (Array UInt8 × Bool) := do
  match (← input.read 1).toList with
  | [] => return (row, false)
  | b :: _ => if b = 0x0A then return (row, true) else readRow input (row.push b)

/-- The next line of the input; none at its end. -/
def readLine? (input : IO.FS.Stream) : IO (Option InputLine) := do
  let (row, ended) ← readRow input #[]
  return if row.isEmpty && !ended then none else some (InputLine.ofRow row.toList)

/-- The names of the files that the command of a line reads. -/
def filesWanted (line : String) : List String :=
  match Command.parse? line with
  | some (.symbols name) => [name]
  | _ => []

/-- Carries out commands until the user leaves or the input ends.  `pending` are the lines that have
been read and not yet used. -/
partial def commandLoop (input : IO.FS.Stream) (console : Console) (pending : List InputLine) :
    IO Unit := do
  let next ← match pending with
    | line :: _ => pure (some line)
    | [] => readLine? input
  match next with
  | none => printMessages (console.loop (fun _ => none) 0 [])
  | some .garbled => printMessages (console.loop (fun _ => none) 1 [.garbled])
  | some (.text line) =>
    let files ← readFiles (filesWanted line)
    let unused := pending.drop 1
    let wanted := Console.linesWanted line - unused.length
    let more ← (List.replicate wanted ()).filterMapM fun _ => readLine? input
    let reply := console.handleLine files line (unused ++ more)
    printMessages reply.messages
    unless reply.quits do commandLoop input reply.console reply.input

/-- Runs the program. -/
def main (args : List String) : IO UInt32 := do
  printMessages (Message.outputs Report.banner)
  match Options.parse? args with
  | none =>
    IO.eprintln "usage: run IMAGE [options]"
    return 2
  | some options =>
    let files ← readFiles (options.image :: options.symbols.toList)
    match Console.start options files Console.standardPatience with
    | (messages, .error e) =>
      printMessages (messages ++ e.messages)
      return UInt32.ofNat e.status
    | (messages, .ok console) =>
      printMessages messages
      commandLoop (← IO.getStdin) console []
      printMessages [.output Report.farewell]
      return 0
