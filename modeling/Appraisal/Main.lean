import Appraisal.Command.Run
import Appraisal.Report.Instant
import Std.Time.DateTime.Timestamp
/-!
# The program

Commands on the files of the machine, and dialogues with a user: menus go to the error output, and each pick is a
line of the input.
-/

open Appraisal

namespace Appraisal.Program

def fileError : IO.Error → FileError
  | .noFileOrDirectory .. => .notFound
  | .inappropriateType _ code _ => if code = 20 then .notDirectory else .isDirectory
  | e => .other (toString e)

instance : Files IO where
  present path := do
    try
      discard (IO.FS.realPath path)
      return true
    catch _ => return false
  read path := do
    try
      match String.fromUTF8? (← IO.FS.readBinFile path) with
      | some text => return .ok text
      | none => return .error .notText
    catch e => return .error (fileError e)
  write path content := do
    try
      IO.FS.writeFile path content
      return .ok ()
    catch e => return .error (fileError e)

def now : IO String := do
  let t := (← Std.Time.Timestamp.now).toNanosecondsSinceUnixEpoch.val.toNat
  return Instant.text ⟨t / 1000000000, t % 1000000000⟩

def conclude (c : Conclusion) : IO UInt32 := do
  IO.eprint c.err
  IO.print c.out
  if let .fatal text := c.exit then IO.eprintln ("fatal: " ++ text)
  return c.exit.toNat.toUInt32

/-- Asks until a line picks something the menu allows, or the input ends. -/
partial def ask (menu : Menu) : IO (Option Pick) := do
  for line in menu.lines do IO.eprintln line
  let line ← (← IO.getStdin).getLine
  if line.isEmpty then return none
  match menu.readPick? line with
  | some pick => return some pick
  | none => ask menu

/-- Goes on with a dialogue to its end. -/
partial def converse (d : Dialogue) : IO Play := do
  IO.eprint (Command.linesText d.told)
  match d.menu? with
  | none => return ⟨d, d.ending, [], []⟩
  | some menu =>
    match ← ask menu with
    | none => return ⟨d, .noMorePicks, [], []⟩
    | some pick => converse (d.step pick)

/-- The interactive command, which tells its lines as it goes on. -/
def run (o : SessionOptions) : IO UInt32 := do
  match ← Command.prepare o with
  | .error e => conclude (.misconfigured e)
  | .ok (c, l) =>
    IO.eprintln (Command.greeting l)
    let play ← converse (.start (.new l.catalog))
    conclude (← Command.endPlay (← now) c l play)

end Appraisal.Program

open Appraisal.Program in
def main (args : List String) : IO UInt32 := do
  match Command.parse (← IO.getEnv "GAUGE_CATALOG") args with
  | .error refusal =>
    if refusal.isWish then
      IO.print refusal.message
      return 0
    else
      IO.eprint refusal.message
      return 2
  | .ok (.run o) => run o
  | .ok command => conclude (← command.perform (← now) [])
