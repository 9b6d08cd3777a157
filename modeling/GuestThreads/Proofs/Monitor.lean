import GuestThreads.Monitor
import Mathlib.Data.List.Induction
import Mathlib.Data.List.Nodup

/-!
# What a monitor shows

A monitor that is handed messages keeps count of the signals, the last one of each thread, and the
lines of the most recent ones. The keys mean one thing while its input field is open and another
while it is closed. `Handled` says once what a message does; from it follows what the monitor holds
after messages in a row, whatever they are: `monitor_keeps_its_books`.
-/

namespace GuestThreads

open Monitor

/-! ## Messages -/

namespace Monitor

def Message.signal? : Message → Option ThreadSignal
  | .signal s => some s
  | _ => none

/-- The module that a message brings. -/
def Message.loaded? : Message → Option Loaded
  | .loaded (.ok l) => some l
  | _ => none

/-- The last signal of a thread among those received. -/
def MostRecent (signals : List ThreadSignal) (thread : Nat) (s : ThreadSignal) : Prop :=
  ∃ earlier later, signals = earlier ++ s :: later ∧ s.thread = thread ∧
    ∀ s' ∈ later, s'.thread ≠ thread

/-- The last `n` of a list, or all of it if there are fewer. -/
def Recent {α : Type} (n : Nat) (xs recent : List α) : Prop :=
  (∃ older, xs = older ++ recent) ∧ recent.length = min n xs.length

section

variable {α : Type}

/-- Where a list is split that has grown at its end. -/
theorem append_singleton_eq_iff {xs ys zs : List α} {x y : α} :
    xs ++ [x] = ys ++ y :: zs ↔
      zs = [] ∧ xs = ys ∧ x = y ∨ ∃ zs', zs = zs' ++ [x] ∧ xs = ys ++ y :: zs' := by
  constructor
  · intro h
    rcases List.eq_nil_or_concat zs with rfl | ⟨zs', z, rfl⟩
    · obtain ⟨rfl, hx⟩ := List.append_inj' h rfl
      cases hx
      exact .inl ⟨rfl, rfl, rfl⟩
    · have h' : xs ++ [x] = (ys ++ y :: zs') ++ [z] := by simpa using h
      obtain ⟨rfl, hx⟩ := List.append_inj' h' rfl
      cases hx
      exact .inr ⟨zs', by simp, rfl⟩
  · rintro (⟨rfl, rfl, rfl⟩ | ⟨zs', rfl, rfl⟩) <;> simp

theorem recent_iff {n : Nat} {xs recent : List α} :
    Recent n xs recent ↔ recent = keepLast n xs := by
  constructor
  · rintro ⟨⟨older, rfl⟩, hlength⟩
    rw [List.length_append] at hlength
    have hdrop : (older ++ recent).length - n = older.length := by
      rw [List.length_append]
      omega
    rw [keepLast, hdrop, List.drop_left]
  · rintro rfl
    refine ⟨⟨xs.take (xs.length - n), (List.take_append_drop _ _).symm⟩, ?_⟩
    rw [keepLast, List.length_drop]
    omega

/-- What was cut off before is not missed. -/
theorem keepLast_keepLast_append (n : Nat) (xs : List α) (x : α) :
    keepLast n (keepLast n xs ++ [x]) = keepLast n (xs ++ [x]) := by
  have hdrop : xs.drop (xs.length - n) ++ [x] = (xs ++ [x]).drop (xs.length - n) := by
    rw [List.drop_append_of_le_length (Nat.sub_le _ _)]
  unfold keepLast
  rw [hdrop, List.drop_drop]
  congr 1
  simp only [List.length_drop, List.length_append, List.length_singleton]
  omega

theorem keepLast_map {β : Type} (f : α → β) (n : Nat) (xs : List α) :
    keepLast n (xs.map f) = (keepLast n xs).map f := by
  simp [keepLast]

end

theorem mostRecent_append {signals : List ThreadSignal} {thread : Nat} {s s' : ThreadSignal} :
    MostRecent (signals ++ [s']) thread s ↔
      s'.thread = thread ∧ s = s' ∨ s'.thread ≠ thread ∧ MostRecent signals thread s := by
  constructor
  · rintro ⟨earlier, later, hsplit, hthread, hlater⟩
    rcases append_singleton_eq_iff.1 hsplit with ⟨-, -, rfl⟩ | ⟨later, rfl, rfl⟩
    · exact .inl ⟨hthread, rfl⟩
    · exact .inr ⟨hlater s' (by simp), earlier, later, rfl, hthread, by grind⟩
  · rintro (⟨hthread, rfl⟩ | ⟨hother, earlier, later, rfl, hthread, hlater⟩)
    · exact ⟨signals, [], rfl, hthread, by simp⟩
    · exact ⟨earlier, later ++ [s'], by simp, hthread, by grind⟩

end Monitor

namespace MonitorOn

variable {F : Type} [InputField F]

/-! ## One message -/

/-- What becomes of a monitor that is handed a message. -/
inductive Handled (m : MonitorOn F) : Message → MonitorOn F → Prop
  | received (s : ThreadSignal) : Handled m (.signal s) (m.receive s)
  | loaded (l : Loaded) : Handled m (.loaded (.ok l)) { m with loaded := some l }
  | notLoaded (f : Fault) : Handled m (.loaded (.error f)) { m with error := some f }
  | ended : Handled m .streamEnded m
  | ticked : Handled m .tick m
  | opened (hclosed : m.spawning = false) (hloaded : m.loaded.isSome = true) :
      Handled m (.key (.char 's')) { m with spawning := true, input := InputField.opened m.input }
  | cleared (hclosed : m.spawning = false) : Handled m (.key (.char 'c')) { m with log := [] }
  | ignored {k : Key} (hclosed : m.spawning = false) (hc : k ≠ .char 'c')
      (hs : k = .char 's' → m.loaded = none) : Handled m (.key k) m
  | typed {k : Key} (hopen : m.spawning = true) (henter : k ≠ .enter) (hescape : k ≠ .escape) :
      Handled m (.key k) { m with input := InputField.press k m.input }
  | escaped (hopen : m.spawning = true) :
      Handled m (.key .escape) { m with spawning := false, input := InputField.closed m.input }
  | entered (hopen : m.spawning = true) (error : Option Fault) :
      Handled m (.key .enter)
        { m with spawning := false, input := InputField.closed m.input, error := error }

theorem update_open {m : MonitorOn F} (h : m.spawning = true) (k : Key) :
    m.update (.key k) = m.typed k := if_pos h

theorem update_closed {m : MonitorOn F} (h : m.spawning = false) (k : Key) :
    m.update (.key k) = m.pressed k := if_neg (by simp [h])

theorem typed_other (m : MonitorOn F) {k : Key} (henter : k ≠ .enter) (hescape : k ≠ .escape) :
    m.typed k = ({ m with input := InputField.press k m.input }, .nothing) := by
  cases k with
  | enter => contradiction
  | escape => contradiction
  | _ => rfl

theorem handle_of_nothing [Wasm.Machine] {m m' : MonitorOn F} {msg : Message}
    (h : m.update msg = (m', .nothing)) (w : World) : m.handle msg w = ((m', true), w) := by
  rw [handle, h]
  rfl

theorem handle_of_quit [Wasm.Machine] {m m' : MonitorOn F} {msg : Message} {k : Option Nat}
    (h : m.update msg = (m', .quit k)) (w : World) : (m.handle msg w).1.1 = m' := by
  rw [handle, h]
  cases k <;> rfl

theorem handle_of_spawn [Wasm.Machine] {m m' : MonitorOn F} {msg : Message} {module : Option Nat}
    {pointer : UInt32} (h : m.update msg = (m', .spawn module pointer)) (w : World) :
    ∃ error, (m.handle msg w).1.1 = { m' with error := error } := by
  rw [handle, h]
  cases module with
  | none => exact ⟨m'.error, rfl⟩
  | some k =>
    change ∃ error, m'.spawned ((World.spawn k pointer [] false).run w).1 = _
    cases ((World.spawn k pointer [] false).run w).1 with
    | ok t => exact ⟨m'.error, rfl⟩
    | error f => exact ⟨some f, rfl⟩

/-- The pointer that the field spells when it is closed. -/
def spelled (m : MonitorOn F) : Except Text.LiteralError Nat :=
  Text.parseUnsigned Text.maxWord32 (Text.trim (InputField.text (InputField.closed m.input)))

/-- Entering a pointer closes the field, and asks for a thread if it is a pointer. -/
theorem update_enter {m : MonitorOn F} (hopen : m.spawning = true) :
    (∃ e f, m.spelled = .error e ∧ m.update (.key .enter) = ({ m with
        spawning := false, input := InputField.closed m.input, error := some f }, .nothing)) ∨
    ∃ v, m.spelled = .ok v ∧ m.update (.key .enter) = ({ m with
        spawning := false, input := InputField.closed m.input, error := none },
      .spawn (m.loaded.map (·.module)) v.toUInt32) := by
  rw [update_open hopen, MonitorOn.typed, submit, spelled]
  cases Text.parseUnsigned Text.maxWord32
      (Text.trim (InputField.text (InputField.closed m.input))) with
  | error e => exact .inl ⟨e, _, rfl, rfl⟩
  | ok v => exact .inr ⟨v, rfl, rfl⟩

theorem handled_open [Wasm.Machine] {m : MonitorOn F} (hopen : m.spawning = true) (k : Key)
    (w : World) : Handled m (.key k) (m.handle (.key k) w).1.1 := by
  by_cases henter : k = .enter
  · subst henter
    rcases update_enter hopen with ⟨e, f, -, hupdate⟩ | ⟨v, -, hupdate⟩
    · rw [handle_of_nothing hupdate]
      exact .entered hopen _
    · obtain ⟨error, herror⟩ := handle_of_spawn hupdate w
      rw [herror]
      exact .entered hopen error
  by_cases hescape : k = .escape
  · subst hescape
    rw [handle_of_nothing (update_open hopen .escape)]
    exact .escaped hopen
  · rw [handle_of_nothing ((update_open hopen k).trans (m.typed_other henter hescape))]
    exact .typed hopen henter hescape

theorem handled_closed [Wasm.Machine] {m : MonitorOn F} (hclosed : m.spawning = false) (k : Key)
    (w : World) : Handled m (.key k) (m.handle (.key k) w).1.1 := by
  have hupdate := update_closed hclosed k
  rw [pressed] at hupdate
  by_cases hquit : k = .interrupt ∨ k = .char 'q'
  · rw [if_pos (by simpa using hquit)] at hupdate
    rw [handle_of_quit hupdate]
    exact .ignored hclosed (by rintro rfl; simp at hquit) (by rintro rfl; simp at hquit)
  rw [if_neg (by simpa using hquit)] at hupdate
  by_cases hs : k = .char 's'
  · rw [if_pos hs] at hupdate
    subst hs
    rw [handle_of_nothing hupdate]
    by_cases hloaded : m.loaded.isSome = true
    · rw [if_pos hloaded]
      exact .opened hclosed hloaded
    · rw [if_neg hloaded]
      exact .ignored hclosed (by decide) fun _ => by simpa using hloaded
  rw [if_neg hs] at hupdate
  by_cases hc : k = .char 'c'
  · rw [if_pos hc] at hupdate
    subst hc
    rw [handle_of_nothing hupdate]
    exact .cleared hclosed
  · rw [if_neg hc] at hupdate
    rw [handle_of_nothing hupdate]
    exact .ignored hclosed hc fun h => absurd h hs

theorem handled [Wasm.Machine] (m : MonitorOn F) (msg : Message) (w : World) :
    Handled m msg (m.handle msg w).1.1 := by
  cases msg with
  | key k =>
    cases hmode : m.spawning with
    | true => exact handled_open hmode k w
    | false => exact handled_closed hmode k w
  | loaded r =>
    cases r with
    | ok l => exact .loaded l
    | error f => exact .notLoaded f
  | signal s => exact .received s
  | streamEnded => exact .ended
  | tick => exact .ticked

/-! ## Messages in a row -/

/-- A monitor at the beginning. -/
def fresh (file : String) (config : Config) (threads : Int) (pointers : List UInt32) :
    MonitorOn F :=
  { file := file, config := config, threads := threads, pointers := pointers }

/-- The monitor after messages, each of which is handled in a world of its own. -/
def after [Wasm.Machine] (m : MonitorOn F) (events : List (Message × World)) : MonitorOn F :=
  events.foldl (fun m e => (m.handle e.1 e.2).1.1) m

/-- The messages, each with the monitor that was handed it. -/
def history [Wasm.Machine] (m : MonitorOn F) : List (Message × World) → List (MonitorOn F × Message)
  | [] => []
  | (msg, w) :: events => (m, msg) :: history (m.handle msg w).1.1 events

theorem after_append [Wasm.Machine] (m : MonitorOn F) (events : List (Message × World))
    (msg : Message) (w : World) :
    m.after (events ++ [(msg, w)]) = ((m.after events).handle msg w).1.1 := by
  simp [after]

theorem history_append [Wasm.Machine] (m : MonitorOn F) (events : List (Message × World))
    (msg : Message) (w : World) :
    m.history (events ++ [(msg, w)]) = m.history events ++ [(m.after events, msg)] := by
  induction events generalizing m with
  | nil => rfl
  | cons e events ih =>
    obtain ⟨msg', w'⟩ := e
    simp [history, after, ih]

theorem map_history [Wasm.Machine] (m : MonitorOn F) (events : List (Message × World)) :
    (m.history events).map (·.2) = events.map (·.1) := by
  induction events generalizing m with
  | nil => rfl
  | cons e events ih => simp [history, ih]

/-- The signals among the messages. -/
def signals (past : List (MonitorOn F × Message)) : List ThreadSignal :=
  past.filterMap (·.2.signal?)

/-- The modules that were loaded. -/
def loads (past : List (MonitorOn F × Message)) : List Loaded := past.filterMap (·.2.loaded?)

/-- A number in base sixteen, with at least eight digits. -/
def eightDigits (n : Nat) : List Char := (Nat.toDigits 16 n).leftpad 8 '0'

/-- How a signal is written: its thread, its two halves, and the number that they make up. -/
def logLine (s : ThreadSignal) : String :=
  String.ofList ("thread ".toList ++ Nat.toDigits 10 s.thread ++
    "  hi=0x".toList ++ eightDigits s.signal.hi.toNat ++
    " lo=0x".toList ++ eightDigits s.signal.lo.toNat ++
    "  ".toList ++ Nat.toDigits 10 (s.signal.hi.toNat * 4294967296 + s.signal.lo.toNat))

/-- What a monitor holds, by what it was handed. -/
structure Books (past : List (MonitorOn F × Message)) (m : MonitorOn F) : Prop where
  total : m.total = (signals past).length
  /-- Each thread is entered with its last signal, once. -/
  last : ∀ thread s, (thread, s) ∈ m.last ↔ MostRecent (signals past) thread s
  nodup : (m.last.map Prod.fst).Nodup
  /-- The lines are those of the last signals since the log was cleared. -/
  log : ∃ before since recent, past = before ++ since ∧
    (before = [] ∨ ∃ earlier b, before = earlier ++ [(b, .key (.char 'c'))] ∧ b.spawning = false) ∧
    (∀ e ∈ since, e.2 = .key (.char 'c') → e.1.spawning = true) ∧
    Recent 15 (signals since) recent ∧ m.log = recent.map logLine
  loaded : m.loaded = (loads past).getLast?
  /-- The field is open since it was opened, with a module loaded, until it is closed. -/
  spawning : m.spawning = true ↔ ∃ before b since, past = before ++ (b, .key (.char 's')) :: since ∧
    b.spawning = false ∧ b.loaded.isSome = true ∧
    ∀ e ∈ since, e.2 ≠ .key .enter ∧ e.2 ≠ .key .escape
  /-- No load takes a module away. -/
  module : m.spawning = true → m.loaded.isSome = true

section

variable {past : List (MonitorOn F × Message)} {m m' : MonitorOn F} {msg : Message}

@[simp] theorem signals_append (since : List (MonitorOn F × Message)) :
    signals (past ++ since) = signals past ++ signals since := List.filterMap_append

@[simp] theorem signals_singleton : signals [(m, msg)] = msg.signal?.toList := by
  cases h : msg.signal? <;> simp [signals, h]

@[simp] theorem loads_append : loads (past ++ [(m, msg)]) = loads past ++ msg.loaded?.toList := by
  cases h : msg.loaded? <;> simp [loads, h]

/-! Each part of a monitor is changed by few messages. -/

theorem Handled.total_eq (h : Handled m msg m') :
    m'.total = m.total + msg.signal?.toList.length := by
  cases h <;> rfl

theorem Handled.loaded_eq (h : Handled m msg m') : m'.loaded = msg.loaded?.or m.loaded := by
  cases h <;> rfl

theorem Handled.last_cases (h : Handled m msg m') :
    (∃ s, msg = .signal s ∧ m'.last = (s.thread, s) :: m.last.filter (·.1 ≠ s.thread)) ∨
      msg.signal? = none ∧ m'.last = m.last := by
  cases h with
  | received s => exact .inl ⟨s, rfl, rfl⟩
  | _ => exact .inr ⟨rfl, rfl⟩

theorem value_toNat (s : Signal) : s.value.toNat = s.hi.toNat * 4294967296 + s.lo.toNat := by
  have hhi := s.hi.toNat_lt
  have hlo := s.lo.toNat_lt
  have hhalf : (s.hi.toUInt64 <<< 32).toNat = 2 ^ 32 * s.hi.toNat := by
    simp [UInt64.toNat_shiftLeft, Nat.shiftLeft_eq]
    omega
  rw [Signal.value, UInt64.toNat_or, hhalf, UInt32.toNat_toUInt64,
    ← Nat.two_pow_add_eq_or_of_lt hlo]
  omega

theorem hex8_eq (n : Nat) : Text.hex8 n = "0x" ++ String.ofList (eightDigits n) := by
  simp [Text.hex8, Text.padLeft, Text.hexDigits, eightDigits, List.leftpad, String.ofList_append]

theorem signalLine_eq (s : ThreadSignal) : signalLine s = logLine s := by
  have hhi : "  hi=0x" = "  hi=" ++ "0x" := by decide
  have hlo : " lo=0x" = " lo=" ++ "0x" := by decide
  delta signalLine logLine Text.decimal
  simp only [value_toNat, hex8_eq, hhi, hlo, String.ofList_append, String.ofList_toList,
    String.append_assoc]

theorem Handled.log_cases (h : Handled m msg m') :
    (msg = .key (.char 'c') ∧ m.spawning = false ∧ m'.log = []) ∨
    (∃ s, msg = .signal s ∧ m'.log = keepLast logLength (m.log ++ [logLine s])) ∨
    msg.signal? = none ∧ (msg = .key (.char 'c') → m.spawning = true) ∧ m'.log = m.log := by
  cases h with
  | received s => exact .inr (.inl ⟨s, rfl, by rw [← signalLine_eq]; rfl⟩)
  | cleared hclosed => exact .inl ⟨rfl, hclosed, rfl⟩
  | ignored hclosed hc hs => exact .inr (.inr ⟨rfl, by simp [hc], rfl⟩)
  | typed hopen => exact .inr (.inr ⟨rfl, fun _ => hopen, rfl⟩)
  | _ => exact .inr (.inr ⟨rfl, by simp, rfl⟩)

theorem Handled.spawning_cases (h : Handled m msg m') :
    (msg = .key (.char 's') ∧ m.spawning = false ∧ m.loaded.isSome = true ∧ m'.spawning = true) ∨
    ((msg = .key .enter ∨ msg = .key .escape) ∧ m'.spawning = false) ∨
    (msg ≠ .key .enter ∧ msg ≠ .key .escape) ∧ m'.spawning = m.spawning ∧
      (msg = .key (.char 's') → m.spawning = false → m.loaded = none) := by
  cases h with
  | opened hclosed hloaded => exact .inl ⟨rfl, hclosed, hloaded, rfl⟩
  | escaped => exact .inr (.inl ⟨.inr rfl, rfl⟩)
  | entered => exact .inr (.inl ⟨.inl rfl, rfl⟩)
  | @ignored k hclosed hc hs =>
    by_cases hends : k = .enter ∨ k = .escape
    · exact .inr (.inl ⟨by simpa using hends, hclosed⟩)
    · exact .inr (.inr ⟨by simpa using hends, rfl, by simpa [hclosed] using hs⟩)
  | typed hopen henter hescape =>
    exact .inr (.inr ⟨by simp [henter, hescape], rfl, by simp [hopen]⟩)
  | _ => exact .inr (.inr ⟨by simp, rfl, by simp⟩)

namespace Books

theorem log_step (h : Books past m) (hstep : Handled m msg m') :
    ∃ before since recent, past ++ [(m, msg)] = before ++ since ∧
      (before = [] ∨
        ∃ earlier b, before = earlier ++ [(b, .key (.char 'c'))] ∧ b.spawning = false) ∧
      (∀ e ∈ since, e.2 = .key (.char 'c') → e.1.spawning = true) ∧
      Recent 15 (signals since) recent ∧ m'.log = recent.map logLine := by
  obtain ⟨before, since, recent, rfl, hbefore, hsince, hrecent, hlog⟩ := h.log
  rcases hstep.log_cases with ⟨rfl, hclosed, hlog'⟩ | ⟨s, rfl, hlog'⟩ | ⟨hmsg, hkept, hlog'⟩
  · exact ⟨before ++ since ++ [(m, _)], [], [], by simp, .inr ⟨_, m, rfl, hclosed⟩, by simp,
      ⟨⟨[], rfl⟩, rfl⟩, hlog'⟩
  · refine ⟨before, since ++ [(m, .signal s)], keepLast 15 (signals since ++ [s]), by simp, hbefore,
      by simpa [or_imp, forall_and] using hsince, by simp [recent_iff, Message.signal?], ?_⟩
    rw [hlog', hlog, recent_iff.1 hrecent, ← keepLast_map, ← keepLast_map, List.map_append]
    exact keepLast_keepLast_append ..
  · refine ⟨before, since ++ [(m, msg)], recent, by simp, hbefore, ?_,
      by simpa [hmsg] using hrecent, hlog'.trans hlog⟩
    intro e he
    rcases List.mem_append.1 he with he | he
    · exact hsince e he
    · cases List.mem_singleton.1 he
      exact hkept

theorem spawning_step (h : Books past m) (hstep : Handled m msg m') :
    m'.spawning = true ↔ ∃ before b since,
      past ++ [(m, msg)] = before ++ (b, .key (.char 's')) :: since ∧
      b.spawning = false ∧ b.loaded.isSome = true ∧
      ∀ e ∈ since, e.2 ≠ .key .enter ∧ e.2 ≠ .key .escape := by
  constructor
  · intro hopen
    rcases hstep.spawning_cases with ⟨rfl, hclosed, hloaded, -⟩ | ⟨-, hends⟩ | ⟨hmsg, hkept, -⟩
    · exact ⟨past, m, [], rfl, hclosed, hloaded, by simp⟩
    · simp [hends] at hopen
    · obtain ⟨before, b, since, rfl, hclosed, hloaded, hsince⟩ := h.spawning.1 (hkept ▸ hopen)
      exact ⟨before, b, since ++ [(m, msg)], by simp, hclosed, hloaded, by grind⟩
  · rintro ⟨before, b, since, hsplit, hclosed, hloaded, hsince⟩
    rcases append_singleton_eq_iff.1 hsplit with ⟨-, -, hlast⟩ | ⟨since, rfl, rfl⟩
    · cases hlast
      rcases hstep.spawning_cases with ⟨-, -, -, hopen⟩ | ⟨hends, -⟩ | ⟨-, -, hnone⟩
      · exact hopen
      · simp at hends
      · simp [hnone rfl hclosed] at hloaded
    · have hwas : m.spawning = true :=
        h.spawning.2 ⟨before, b, since, rfl, hclosed, hloaded, fun e he => hsince e (by simp [he])⟩
      rcases hstep.spawning_cases with ⟨-, -, -, hopen⟩ | ⟨hends, -⟩ | ⟨-, hkept, -⟩
      · exact hopen
      · have hlast := hsince (m, msg) (by simp)
        exact absurd hends (by simp [hlast])
      · rw [hkept, hwas]

/-- The books are kept by a message. -/
theorem step (h : Books past m) (hstep : Handled m msg m') : Books (past ++ [(m, msg)]) m' where
  total := by simp [hstep.total_eq, h.total]
  last := by
    intro thread s'
    rcases hstep.last_cases with ⟨s, rfl, hlast⟩ | ⟨hmsg, hlast⟩
    · have hsignals : signals (past ++ [(m, .signal s)]) = signals past ++ [s] := by
        simp [Message.signal?]
      rw [hlast, hsignals, mostRecent_append, ← h.last]
      grind
    · simp [hmsg, hlast, h.last]
  nodup := by
    rcases hstep.last_cases with ⟨s, rfl, hlast⟩ | ⟨-, hlast⟩
    · rw [hlast, List.map_cons, List.nodup_cons]
      refine ⟨by simp, h.nodup.sublist (List.filter_sublist.map Prod.fst)⟩
    · rw [hlast]
      exact h.nodup
  log := h.log_step hstep
  loaded := by
    rw [hstep.loaded_eq, loads_append, h.loaded]
    cases msg.loaded? <;> simp
  spawning := h.spawning_step hstep
  module := by
    intro hopen
    rcases hstep.spawning_cases with ⟨-, -, hloaded, -⟩ | ⟨-, hends⟩ | ⟨-, hkept, -⟩
    · simp [hstep.loaded_eq, hloaded]
    · simp [hends] at hopen
    · simp [hstep.loaded_eq, h.module (hkept ▸ hopen)]

end Books

theorem books_after [Wasm.Machine] (m : MonitorOn F) (h : Books [] m)
    (events : List (Message × World)) : Books (m.history events) (m.after events) := by
  induction events using List.reverseRecOn with
  | nil => exact h
  | append_singleton events e ih =>
    obtain ⟨msg, w⟩ := e
    rw [history_append, after_append]
    exact ih.step (handled _ msg w)

theorem books_fresh (file : String) (config : Config) (threads : Int) (pointers : List UInt32) :
    Books [] (fresh file config threads pointers : MonitorOn F) where
  total := rfl
  last := by
    intro thread s
    simp [fresh, MostRecent, signals]
  nodup := List.nodup_nil
  log := ⟨[], [], [], rfl, .inl rfl, by simp, ⟨⟨[], rfl⟩, rfl⟩, rfl⟩
  loaded := rfl
  spawning := by simp [fresh]
  module := by simp [fresh]

/-- What a monitor sees to when it asks for a thread, and while its field is open. -/
structure Guarded [Wasm.Machine] (m : MonitorOn F) : Prop where
  /-- A pointer can be entered only with a module loaded, and the thread asked for is one of it. -/
  entering : m.spawning = true → ∃ l, m.loaded = some l ∧
    ∀ v, m.spelled = .ok v → (m.update (.key .enter)).2 = .spawn (some l.module) v.toUInt32
  /-- Nothing else asks for a thread. -/
  asking : ∀ msg module pointer, (m.update msg).2 = .spawn module pointer →
    msg = .key .enter ∧ m.spawning = true ∧ module.isSome = true
  /-- A key that neither enters nor leaves changes the field, and nothing else in the monitor or in
  the world. -/
  typing : m.spawning = true → ∀ k, k ≠ .enter → k ≠ .escape → ∀ w,
    m.handle (.key k) w = (({ m with input := InputField.press k m.input }, true), w)

theorem pressed_ne_spawn (m : MonitorOn F) (k : Key) (module : Option Nat) (pointer : UInt32) :
    (m.pressed k).2 ≠ .spawn module pointer := by
  unfold pressed
  split_ifs <;> simp

theorem spawn_of_update {k : Key} {module : Option Nat} {pointer : UInt32}
    (hopen : m.spawning = true) (h : (m.update (.key k)).2 = .spawn module pointer) :
    k = .enter ∧ module = m.loaded.map (·.module) := by
  by_cases henter : k = .enter
  · subst henter
    rcases update_enter hopen with ⟨e, f, -, hupdate⟩ | ⟨v, -, hupdate⟩
    · rw [hupdate] at h
      cases h
    · rw [hupdate] at h
      cases h
      exact ⟨rfl, rfl⟩
  rw [update_open hopen] at h
  by_cases hescape : k = .escape
  · subst hescape
    cases h
  · rw [m.typed_other henter hescape] at h
    cases h

theorem Books.guarded [Wasm.Machine] (h : Books past m) : Guarded m where
  entering := by
    intro hopen
    obtain ⟨l, hl⟩ := Option.isSome_iff_exists.1 (h.module hopen)
    refine ⟨l, hl, fun v hv => ?_⟩
    rcases update_enter hopen with ⟨e, f, he, hupdate⟩ | ⟨v', hv', hupdate⟩
    · cases he.symm.trans hv
    · cases hv'.symm.trans hv
      rw [hupdate, hl]
      rfl
  asking := by
    intro msg module pointer hspawn
    cases msg with
    | key k =>
      cases hmode : m.spawning with
      | false =>
        rw [update_closed hmode] at hspawn
        exact absurd hspawn (m.pressed_ne_spawn k module pointer)
      | true =>
        obtain ⟨rfl, hmodule⟩ := spawn_of_update hmode hspawn
        exact ⟨rfl, rfl, by simp [hmodule, h.module hmode]⟩
    | loaded r => cases r <;> cases hspawn
    | signal s => cases hspawn
    | streamEnded => cases hspawn
    | tick => cases hspawn
  typing := by
    intro hopen k henter hescape w
    exact handle_of_nothing ((update_open hopen k).trans (m.typed_other henter hescape)) w

/-- However a monitor is driven, whatever its input field makes of keys, and whatever the worlds are
in which it handles the messages: it has counted the signals and holds the last one of each thread;
its log has the lines of the last fifteen signals since it was cleared, which only a key outside the
field does; the field is open only with a module loaded, so that no thread is asked of a missing
module; and while it is open, all keys but two change the field and nothing else. -/
theorem monitor_keeps_its_books [Wasm.Machine] (file : String) (config : Config) (threads : Int)
    (pointers : List UInt32) (events : List (Message × World)) :
    ((fresh file config threads pointers : MonitorOn F).history events).map Prod.snd =
      events.map Prod.fst ∧
    Books ((fresh file config threads pointers : MonitorOn F).history events)
      ((fresh file config threads pointers).after events) ∧
    Guarded ((fresh file config threads pointers : MonitorOn F).after events) := by
  have hbooks := books_after _ (books_fresh (F := F) file config threads pointers) events
  exact ⟨map_history _ events, hbooks, hbooks.guarded⟩

-- The key that clears the log is a character like others in the open field.
example (w : World) :
    let m : Monitor := fresh "guest" {} 1 []
    let typing := m.after [(.loaded (.ok ⟨0, 0⟩), w), (.signal ⟨0, ⟨1, 2⟩⟩, w),
      (.key (.char 's'), w), (.key (.char 'c'), w)]
    typing.input = ⟨['c']⟩ ∧ typing.log = ["thread 0  hi=0x00000001 lo=0x00000002  4294967298"] ∧
      (typing.after [(.key .escape, w), (.key (.char 'c'), w)]).log = [] :=
  ⟨rfl, rfl, rfl⟩

end

end MonitorOn

end GuestThreads
