import GuestThreads.Monitor
import GuestThreads.Text.Columns

/-!
# What the monitor shows

A title, a row for each thread, the most recent signals, and at the bottom the last error, the input
field if it is open, and the keys.
-/

namespace GuestThreads.Monitor

/-- The columns of a thread's row. -/
def row (id state signals region last : String) : String :=
  Text.padRight 6 id ++ " " ++ Text.padRight 16 state ++ " " ++ Text.padRight 9 signals ++ " " ++
    Text.padRight 22 region ++ " " ++ last

def threadRows (w : World) (m : Monitor) (t : Thread) : List String :=
  let status := w.threadStatus t
  let state := status.state.name ++ (if status.failed then " !" else "")
  let region := Text.hex8 t.region.base.toNat ++ "-" ++ Text.hex8 t.region.finish.toNat
  let last := match m.last.lookup t.id with
    | some s =>
      "(" ++ Text.decimal s.signal.hi.toNat ++ ", " ++ Text.decimal s.signal.lo.toNat ++ ")"
    | none => "-"
  row (Text.decimal t.id) state (Text.decimal status.signals.toNat) region last ::
    (match status.failed, t.error with
    | true, some f => [Text.block ("       " ++ f.message)]
    | _, _ => [])

/-- The input field shows the end of its text, or a hint, and room for one character more. -/
def inputLine (m : Monitor) : String :=
  let shown :=
    if m.input.chars.isEmpty then "0x0" else String.ofList (Text.lastColumns 20 m.input.chars)
  "closure pointer: " ++ Text.fillColumns 21 shown

def footer (m : Monitor) : List String :=
  (match m.error with
  | some f => [Text.block ("Error: " ++ f.message)]
  | none => []) ++
  if m.spawning then [m.inputLine, "enter spawn • esc cancel"]
  else ["s spawn thread • c clear log • q quit"]

def view (w : World) (m : Monitor) : String :=
  match m.loaded, m.error with
  | none, some f => Text.block ("Error: " ++ f.message ++ "\n\nPress q to quit.")
  | none, none => "Loading module..."
  | some l, _ =>
    let threads := (w.modules[l.module]?.map (·.threads)).getD []
    String.intercalate "\n" <|
      [" Thread Monitor  " ++ m.file ++ "  " ++ Text.decimal m.total ++ " signal(s)", "",
        row "id" "state" "signals" "region" "last"] ++
      threads.flatMap (threadRows w m) ++ ["", "signals"] ++ m.log ++ [""] ++ m.footer

end GuestThreads.Monitor
