import Mathlib.Data.List.TakeWhile

/-!
The command line. `shell_feed` edits one buffer, which keeps what longer lines left behind the
end of the present one, and `shell_execute` runs the text up to the first zero.
-/

namespace Sapote.Shell

def shellLineLimit : Nat := 128

inductive ShellStatus where
  | ok | notInitialized | lineTooLong | unknownCommand | badArgument

inductive Command where
  | help | echo | clear | uptime | mem | pci | keys | threads | ledger | version
  deriving DecidableEq

structure ShellState where
  active : Bool
  (lines commands unknown rejected : UInt64)
  length : Nat
  line : Vector UInt8 (shellLineLimit + 1)

/-- What a call answers, with the text it executed and the command it ran with its argument. -/
structure ShellResult where
  status : ShellStatus
  state : ShellState
  executed : Option (List UInt8)
  ran : Option (Command × List UInt8)

def Command.name (command : Command) : List UInt8 :=
  let text := match command with
    | .help => "help" | .echo => "echo" | .clear => "clear" | .uptime => "uptime" | .mem => "mem"
    | .pci => "pci" | .keys => "keys" | .threads => "threads" | .ledger => "ledger"
    | .version => "version"
  text.toList.map fun c => c.toNat.toUInt8

/-- The commands in the order in which the dispatcher compares them. -/
def commandOrder : List Command :=
  [.help, .echo, .clear, .uptime, .mem, .pci, .keys, .threads, .ledger, .version]

def isSeparator (character : UInt8) : Bool := character = 0x20 || character = 0x09

def matchesName : List UInt8 → List UInt8 → Bool
  | c :: text, n :: name => if c ≠ n then false else matchesName text name
  | [], _ :: _ => false
  | [], [] => true
  | c :: _, [] => isSeparator c

def argumentsOf (text : List UInt8) : List UInt8 :=
  (text.dropWhile fun c => !isSeparator c).dropWhile isSeparator

def shellExecute (s : ShellState) : Option (List UInt8) → ShellResult
  | none => ⟨.badArgument, s, none, none⟩
  | some line =>
    let text := line.dropWhile isSeparator
    let s := { s with lines := s.lines + 1 }
    if text = [] then ⟨.ok, s, some line, none⟩
    else
      match commandOrder.find? fun command => matchesName text command.name with
      | none => ⟨.unknownCommand, { s with unknown := s.unknown + 1 }, some line, none⟩
      | some command => ⟨.ok, { s with commands := s.commands + 1 }, some line,
          some (command, if command = .echo then argumentsOf text else [])⟩

def endsLine (character : UInt8) : Bool := character = 0x0A || character = 0x0D

def isPrintable (character : UInt8) : Bool := 0x20 ≤ character && character ≤ 0x7E

def shellFeed (s : ShellState) (character : UInt8) : ShellResult :=
  if !s.active then ⟨.notInitialized, s, none, none⟩
  else if endsLine character then
    let line := s.line.setIfInBounds s.length 0
    shellExecute { s with line := line, length := 0 } (some (line.toList.takeWhile (· ≠ 0)))
  else if character = 0x08 then
    if s.length = 0 then ⟨.ok, s, none, none⟩
    else ⟨.ok, { s with length := s.length - 1 }, none, none⟩
  else if !isPrintable character then ⟨.ok, s, none, none⟩
  else if shellLineLimit ≤ s.length then
    ⟨.lineTooLong, { s with rejected := s.rejected + 1 }, none, none⟩
  else
    ⟨.ok, { s with line := s.line.setIfInBounds s.length character, length := s.length + 1 },
      none, none⟩

def shellInitialize (s : ShellState) : ShellState :=
  { s with active := true, length := 0, line := s.line.setIfInBounds 0 0 }

open List

section
variable {text word : List UInt8} {command : Command}

def firstWord (text : List UInt8) : List UInt8 :=
  (text.dropWhile isSeparator).takeWhile fun c => !isSeparator c

theorem name_plain (command : Command) : ∀ c ∈ command.name, isSeparator c = false := by
  cases command <;> decide +kernel

theorem find_name (command : Command) :
    commandOrder.find? (fun other => command.name = other.name) = some command := by
  cases command <;> decide +kernel

/-- A name matches when it is the whole word at the start. -/
theorem matchesName_iff (plain : ∀ c ∈ word, isSeparator c = false) :
    matchesName text word ↔ text.takeWhile (fun c => !isSeparator c) = word := by
  fun_induction matchesName text word with
  | case1 c text n name other =>
    simp only [Bool.false_eq_true, false_iff, takeWhile_cons]
    split
    · exact fun same => other (cons.inj same).1
    · exact nofun
  | case2 c text n name same ih =>
    obtain rfl := not_not.mp same
    rw [ih fun x member => plain x (.tail _ member), takeWhile_cons, plain c (.head _)]
    exact (cons_inj_right c).symm
  | case3 => simp
  | case4 => simp
  | case5 c text =>
    rw [takeWhile_cons]
    cases isSeparator c <;> simp

/-- A command runs when its name is the first word; only `echo` is given the rest. -/
theorem shellExecute_ran (s : ShellState) (text : List UInt8) (command : Command)
    (argument : List UInt8) :
    (shellExecute s (some text)).ran = some (command, argument) ↔
      firstWord text = command.name ∧
        argument = if command = .echo then argumentsOf (text.dropWhile isSeparator) else [] := by
  have matching : (fun other : Command => matchesName (text.dropWhile isSeparator) other.name) =
      fun other => decide (firstWord text = other.name) :=
    funext fun other => Bool.eq_iff_iff.mpr
      ((matchesName_iff (name_plain other)).trans decide_eq_true_iff.symm)
  rw [shellExecute]
  dsimp only
  split
  · next blank =>
    refine ⟨nofun, fun h => ?_⟩
    rw [firstWord, blank] at h
    cases command <;> exact absurd h.1 (by decide +kernel)
  rw [matching]
  constructor
  · intro ran
    split at ran
    · cases ran
    next other found =>
    obtain ⟨rfl, rfl⟩ := Prod.mk.inj (Option.some.inj ran)
    have named := find?_some found
    exact ⟨of_decide_eq_true named, rfl⟩
  · rintro ⟨same, rfl⟩
    rw [same, find_name]

end

/-- The lines as they are meant: the one being typed and those that were ended. -/
structure Typed where
  line : List UInt8
  lines : List (List UInt8)

def Typed.feed (t : Typed) (c : UInt8) : Typed :=
  if endsLine c then ⟨[], t.lines ++ [t.line]⟩
  else if c = 0x08 then { t with line := t.line.dropLast }
  else if isPrintable c ∧ t.line.length < shellLineLimit then { t with line := t.line ++ [c] }
  else t

structure Editing (start s : ShellState) (t : Typed) : Prop where
  active : s.active
  length : s.length = t.line.length
  bound : t.line.length ≤ shellLineLimit
  text : s.line.toList.take t.line.length = t.line
  nonzero : ∀ c ∈ t.line, c ≠ 0
  counted : s.lines + start.commands + start.unknown = start.lines + s.commands + s.unknown +
    (t.lines.countP fun text => text.all isSeparator).toUInt64

theorem shellExecute_counts (s : ShellState) (text : List UInt8) :
    let result := shellExecute s (some text)
    result.executed = some text ∧ result.state.active = s.active ∧
      result.state.length = s.length ∧
      result.state.lines + s.commands + s.unknown = s.lines + result.state.commands +
        result.state.unknown + ([text].countP fun text => text.all isSeparator).toUInt64 := by
  have blank : text.dropWhile isSeparator = [] ↔ text.all isSeparator := by
    rw [dropWhile_eq_nil_iff, all_eq_true]
  simp only [shellExecute, blank, countP_singleton]
  split
  · exact ⟨rfl, rfl, rfl, by grind⟩
  split
  · exact ⟨rfl, rfl, rfl, by grind⟩
  · exact ⟨rfl, rfl, rfl, by grind⟩

section
variable {start s : ShellState} {t : Typed} (h : Editing start s t)
include h

theorem Editing.set (c : UInt8) : (s.line.setIfInBounds s.length c).toList =
    t.line ++ c :: s.line.toList.drop (t.line.length + 1) := by
  have bound := h.bound
  rw [h.length, Vector.toList_setIfInBounds, set_eq_take_append_cons_drop, h.text, if_pos]
  rw [Vector.length_toList]
  omega

theorem Editing.ended :
    (s.line.setIfInBounds s.length 0).toList.takeWhile (· ≠ 0) = t.line := by
  rw [h.set, takeWhile_append_of_pos (by simpa using h.nonzero),
    takeWhile_cons_of_neg (by simp), append_nil]

theorem Editing.erased {n : Nat} (shorter : n = s.length - 1) :
    Editing start { s with length := n } { t with line := t.line.dropLast } := by
  have bound := h.bound
  have text := congrArg (take (t.line.length - 1)) h.text
  rw [take_take, min_eq_left (by omega), ← dropLast_eq_take] at text
  refine ⟨h.active, ?_, ?_, ?_, ?_, h.counted⟩ <;> dsimp only
  · rw [shorter, h.length, length_dropLast]
  · rw [length_dropLast]
    omega
  · rw [length_dropLast]
    exact text
  · intro c member
    exact h.nonzero c ((dropLast_sublist _).mem member)

theorem Editing.appended {c : UInt8} (printable : isPrintable c)
    (room : t.line.length < shellLineLimit) :
    Editing start { s with line := s.line.setIfInBounds s.length c, length := s.length + 1 }
      { t with line := t.line ++ [c] } := by
  refine ⟨h.active, ?_, ?_, ?_, ?_, h.counted⟩ <;> dsimp only
  · rw [h.length, length_append, length_singleton]
  · rw [length_append, length_singleton]
    exact room
  · simp [h.set, take_append, take_of_length_le]
  · intro x member
    obtain old | new := mem_append.mp member
    · exact h.nonzero x old
    · rintro rfl
      rw [← mem_singleton.mp new] at printable
      cases printable

theorem Editing.step (c : UInt8) : Editing start (shellFeed s c).state (t.feed c) := by
  have length := h.length
  rw [shellFeed, if_neg (by rw [h.active]; nofun), Typed.feed]
  split
  · dsimp only
    rw [h.ended]
    obtain ⟨-, active, zero, counts⟩ := shellExecute_counts
      { s with line := s.line.setIfInBounds s.length 0, length := 0 } t.line
    refine ⟨active.trans h.active, zero, Nat.zero_le _, rfl, nofun, ?_⟩
    have counted := h.counted
    rw [countP_append, Nat.toUInt64, UInt64.ofNat_add]
    grind
  split
  · split
    · exact @Editing.erased _ _ _ h s.length (by omega)
    · exact h.erased rfl
  split
  · next other =>
    rw [if_neg fun h => by simp [h.1] at other]
    exact h
  next printable =>
  rw [Bool.not_eq_true', Bool.not_eq_false] at printable
  split
  · rw [if_neg (by omega)]
    exact ⟨h.active, h.length, h.bound, h.text, h.nonzero, h.counted⟩
  · rw [if_pos ⟨printable, by omega⟩]
    exact h.appended printable (by omega)

theorem Editing.run (fed : List UInt8) :
    Editing start (fed.foldl (fun s c => (shellFeed s c).state) s) (fed.foldl Typed.feed t) := by
  induction fed generalizing s t with
  | nil => exact h
  | cons c fed ih => exact ih (h.step c)

end

/-- The text that runs is the replay of the characters since the line before, a character over
the limit is refused and counted, a command runs when its name is the first word, and every
line names a command, names none or is blank. -/
theorem shell_lines_replayed (start : ShellState) (fed : List UInt8) :
    let s := fed.foldl (fun s c => (shellFeed s c).state) (shellInitialize start)
    let t := fed.foldl Typed.feed ⟨[], []⟩
    (∀ c, (shellFeed s c).executed = if endsLine c then some t.line else none) ∧
    (∀ c, isPrintable c → t.line.length = shellLineLimit → shellFeed s c =
      ⟨.lineTooLong, { s with rejected := s.rejected + 1 }, none, none⟩) ∧
    (∀ text command argument,
      (shellExecute s (some text)).ran = some (command, argument) ↔
        firstWord text = command.name ∧ argument = if command = .echo then
          ((text.dropWhile isSeparator).dropWhile fun c => !isSeparator c).dropWhile isSeparator
        else []) ∧
    s.lines + start.commands + start.unknown = start.lines + s.commands + s.unknown +
      (t.lines.countP fun text => text.all isSeparator).toUInt64 := by
  intro s t
  have first : Editing start (shellInitialize start) ⟨[], []⟩ :=
    ⟨rfl, rfl, Nat.zero_le _, rfl, nofun, (UInt64.add_zero _).symm⟩
  have editing : Editing start s t := first.run fed
  have active : ¬(!s.active) = true := by rw [editing.active]; nofun
  refine ⟨?_, ?_, shellExecute_ran s, editing.counted⟩
  · intro c
    rw [shellFeed, if_neg active]
    split
    · dsimp only
      rw [editing.ended]
      exact (shellExecute_counts _ t.line).1
    · repeat' split
      all_goals rfl
  · intro c printable full
    have inside : ¬endsLine c := by
      intro ends
      obtain rfl | rfl : c = 0x0A ∨ c = 0x0D := by simpa [endsLine] using ends
      all_goals cases printable
    have kept : c ≠ 0x08 := by
      rintro rfl
      cases printable
    rw [shellFeed, if_neg active, if_neg inside, if_neg kept, if_neg (by rw [printable]; nofun),
      if_pos (full.symm.trans editing.length.symm).le]

end Sapote.Shell
