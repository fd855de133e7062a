import Mathlib.Data.List.TakeWhile
import Mathlib.Data.Nat.Bitwise

/-!
# `std_string_format` and the two `output_console`

All three format into an empty `std::string`, which they resize only for a text
longer than its capacity, and pass its capacity for the size of the buffer.
The capacity does not count the terminator and the size does, so a text that is
as long as the capacity does not fit (`format_iff`).
-/

namespace AsioTcp.StringFormat

/-- What the code relies on of the library: `resize` of an empty string makes
room and never shrinks. -/
structure StringLibrary where
  /-- the capacity of an empty string -/
  capacity : Nat
  /-- the capacity of an empty string after `resize(k)` -/
  resized : Nat → Nat
  atLeast : ∀ k, k ≤ resized k
  noShrink : ∀ k, capacity ≤ resized k

def nul : Char := Char.ofNat 0

def endl : Char := Char.ofNat 10

/-- A `std::string` by the bytes that it owns, that for a terminator included. -/
structure StdString where
  capacity : Nat
  owned : List Char
  owns : owned.length = capacity + 1

namespace StdString

def ofCapacity (capacity : Nat) : StdString :=
  ⟨capacity, List.replicate (capacity + 1) nul, List.length_replicate⟩

/-- `std::string tmp;` -/
def empty (lib : StringLibrary) : StdString := ofCapacity lib.capacity

/-- `tmp.resize(k)`, on an empty string. -/
def resized (lib : StringLibrary) (k : Nat) : StdString := ofCapacity (lib.resized k)

/-- The text at `c_str()`. -/
def cStr (s : StdString) : List Char := s.owned.takeWhile (· ≠ nul)

end StdString

inductive Fault
  /-- the handler for invalid parameters is called, which ends the process -/
  | bufferTooSmall
  /-- a write past the end of the buffer -/
  | overrun
  deriving DecidableEq, Repr

/-- `vsprintf_s(buffer, size, ...)`, where the text is what `_Format` and its
arguments come to. -/
def vsprintfS (buffer : StdString) (size : Nat) (text : List Char) : Except Fault StdString :=
  if size < text.length + 1 then .error .bufferTooSmall
  else if h : text.length + 1 ≤ buffer.owned.length then
    .ok { buffer with
      owned := text ++ nul :: buffer.owned.drop (text.length + 1)
      owns := by
        rw [← buffer.owns, List.length_append, List.length_cons, List.length_drop]
        omega }
  else .error .overrun

/-- `tmp`, when `vsprintf_s` is called. -/
def buffer (lib : StringLibrary) (numOfChars : Nat) : StdString :=
  let tmp := StdString.empty lib
  if numOfChars > tmp.capacity then .resized lib (numOfChars + 1) else tmp

/-- The lines that the three functions share, up to `va_end`. -/
def format (lib : StringLibrary) (text : List Char) : Except Fault StdString :=
  let tmp := buffer lib text.length
  vsprintfS tmp tmp.capacity text

/-- `std_string_format`, by the new value of `_str`. -/
def stdStringFormat (lib : StringLibrary) (text : List Char) : Except Fault (List Char) := do
  let tmp ← format lib text
  return tmp.cStr

/-- `output_console`, by what it prints. -/
def outputConsole (lib : StringLibrary) (text : List Char) : Except Fault (List Char) := do
  let tmp ← format lib text
  return tmp.cStr ++ [endl]

/-- `%d` -/
def decimal (x : UInt32) : List Char :=
  let i := x.toInt32.toInt
  if i < 0 then '-' :: Nat.toDigits 10 i.natAbs else Nat.toDigits 10 i.natAbs

/-- `"thread[%5d] - id[%2d] : "` -/
def prefixText (threadId clientId : UInt32) : List Char :=
  "thread[".toList ++ (decimal threadId).leftpad 5 ' ' ++ "] - id[".toList ++
    (decimal clientId).leftpad 2 ' ' ++ "] : ".toList

namespace SessionTcp

/-- `session_tcp::output_console`, by what it prints. -/
def outputConsole (lib : StringLibrary) (threadId clientId : UInt32) (text : List Char) :
    Except Fault (List Char) := do
  let strPrefix ← stdStringFormat lib (prefixText threadId clientId)
  let tmp ← format lib text
  return strPrefix ++ tmp.cStr ++ [endl]

end SessionTcp

/-- The size passed to `vsprintf_s` for `n` characters counts the terminator
and is no more than the string owns. -/
structure Sized (lib : StringLibrary) (n : Nat) : Prop where
  enough : n + 1 ≤ (buffer lib n).capacity
  owned : (buffer lib n).capacity ≤ (buffer lib n).owned.length

/-! ## The size and the text -/

variable (lib : StringLibrary)

theorem StdString.capacity_le_owned (s : StdString) : s.capacity ≤ s.owned.length := by
  rw [s.owns]
  exact Nat.le_succ _

theorem capacity_buffer (n : Nat) : (buffer lib n).capacity =
    if lib.capacity < n then lib.resized (n + 1) else lib.capacity := by
  unfold buffer
  by_cases hlong : lib.capacity < n
  · simp only [StdString.empty, StdString.ofCapacity, gt_iff_lt, if_pos hlong, StdString.resized]
  · simp only [StdString.empty, StdString.ofCapacity, gt_iff_lt, if_neg hlong]

theorem sized_iff (n : Nat) : Sized lib n ↔ n ≠ lib.capacity := by
  have henough : n + 1 ≤ (buffer lib n).capacity ↔ n ≠ lib.capacity := by
    rw [capacity_buffer]
    split
    · rename_i hlong
      exact iff_of_true (lib.atLeast (n + 1)) (Nat.ne_of_gt hlong)
    · omega
  constructor
  · exact fun h => henough.mp h.enough
  · exact fun h => ⟨henough.mpr h, (buffer lib n).capacity_le_owned⟩

theorem takeWhile_nul (text rest : List Char) :
    (text ++ nul :: rest).takeWhile (· ≠ nul) = text.takeWhile (· ≠ nul) := by
  induction text with
  | nil => rfl
  | cons c text ih => rw [List.cons_append, List.takeWhile_cons, List.takeWhile_cons, ih]

theorem takeWhile_eq_iff (text : List Char) :
    text.takeWhile (· ≠ nul) = text ↔ nul ∉ text := by
  rw [List.takeWhile_eq_self_iff]
  constructor
  · exact fun h hnul => of_decide_eq_true (h nul hnul) rfl
  · exact fun h c hc => decide_eq_true fun hnul => h (hnul ▸ hc)

/-- A buffer that is large enough gets the whole text and its terminator. -/
theorem vsprintfS_ok {s : StdString} {size : Nat} {text : List Char} (h : text.length + 1 ≤ size)
    (howned : size ≤ s.owned.length) :
    ∃ s', vsprintfS s size text = .ok s' ∧ s'.cStr = text.takeWhile (· ≠ nul) := by
  have hfits : text.length + 1 ≤ s.owned.length := h.trans howned
  unfold vsprintfS
  rw [if_neg (Nat.not_lt.mpr h), dif_pos hfits]
  exact ⟨_, rfl, takeWhile_nul text _⟩

/-- The text is formatted up to a `nul` in it, unless it is as long as the
capacity. -/
theorem format_eq (text : List Char) :
    text.length = lib.capacity ∧ format lib text = .error .bufferTooSmall ∨
    text.length ≠ lib.capacity ∧
      ∃ tmp, format lib text = .ok tmp ∧ tmp.cStr = text.takeWhile (· ≠ nul) := by
  by_cases hlen : text.length = lib.capacity
  · have hsmall : ¬ text.length + 1 ≤ (buffer lib text.length).capacity := fun henough =>
      (sized_iff lib text.length).mp ⟨henough, StdString.capacity_le_owned _⟩ hlen
    exact Or.inl ⟨hlen, if_pos (Nat.lt_of_not_le hsmall)⟩
  · obtain ⟨henough, howned⟩ := (sized_iff lib text.length).mpr hlen
    exact Or.inr ⟨hlen, vsprintfS_ok henough howned⟩

/-- What is printed around the text does not matter. -/
theorem printed_iff (before text after : List Char) :
    (format lib text >>= fun tmp => pure (before ++ tmp.cStr ++ after)) =
        .ok (before ++ text ++ after) ↔
      text.length ≠ lib.capacity ∧ nul ∉ text := by
  obtain ⟨hlen, hformat⟩ | ⟨hlen, tmp, hformat, hcstr⟩ := format_eq lib text
  · rw [hformat]
    exact iff_of_false (fun h => nomatch h) (fun h => h.1 hlen)
  · rw [hformat]
    show Except.ok (before ++ tmp.cStr ++ after) = .ok (before ++ text ++ after) ↔ _
    rw [Except.ok.injEq, List.append_left_inj, List.append_right_inj, hcstr, takeWhile_eq_iff]
    exact (and_iff_right hlen).symm

theorem stdStringFormat_iff (text : List Char) :
    stdStringFormat lib text = .ok text ↔ text.length ≠ lib.capacity ∧ nul ∉ text := by
  have h := printed_iff lib [] text []
  simp only [List.nil_append, List.append_nil] at h
  exact h

theorem outputConsole_iff (text : List Char) :
    outputConsole lib text = .ok (text ++ [endl]) ↔
      text.length ≠ lib.capacity ∧ nul ∉ text :=
  printed_iff lib [] text [endl]

/-! ## The prefix -/

theorem nul_decimal (x : UInt32) : nul ∉ decimal x := by
  have hdigits : ∀ n, nul ∉ Nat.toDigits 10 n := fun n h =>
    absurd (Nat.isDigit_of_mem_toDigits (by decide) (by decide) h) (by decide)
  show nul ∉ if x.toInt32.toInt < 0 then _ else _
  split
  · rw [List.mem_cons]
    exact not_or.mpr ⟨by decide, hdigits _⟩
  · exact hdigits _

theorem nul_leftpad (width : Nat) (x : UInt32) : nul ∉ (decimal x).leftpad width ' ' := by
  unfold List.leftpad
  rw [List.mem_append]
  exact not_or.mpr ⟨fun h => absurd (List.eq_of_mem_replicate h) (by decide), nul_decimal x⟩

theorem nul_prefixText (threadId clientId : UInt32) : nul ∉ prefixText threadId clientId := by
  unfold prefixText
  simp only [List.mem_append, not_or]
  exact ⟨⟨⟨⟨by decide, nul_leftpad 5 threadId⟩, by decide⟩, nul_leftpad 2 clientId⟩, by decide⟩

theorem sessionOutputConsole_iff (threadId clientId : UInt32) (text : List Char) :
    SessionTcp.outputConsole lib threadId clientId text =
        .ok (prefixText threadId clientId ++ text ++ [endl]) ↔
      (prefixText threadId clientId).length ≠ lib.capacity ∧ text.length ≠ lib.capacity ∧
        nul ∉ text := by
  have hhead := stdStringFormat_iff lib (prefixText threadId clientId)
  unfold SessionTcp.outputConsole
  by_cases hlen : (prefixText threadId clientId).length = lib.capacity
  · obtain ⟨-, hformat⟩ | ⟨hne, -⟩ := format_eq lib (prefixText threadId clientId)
    · rw [stdStringFormat, hformat]
      exact iff_of_false (fun h => nomatch h) (fun h => h.1 hlen)
    · exact absurd hlen hne
  · rw [hhead.mpr ⟨hlen, nul_prefixText threadId clientId⟩]
    exact (printed_iff lib _ text [endl]).trans (and_iff_right hlen).symm

/-- **The size fits and the text comes out whole** if and only if the text is
not as long as the capacity of an empty string (nor is the prefix, where there
is one) and has no `nul` in it. -/
theorem format_iff (text : List Char) (threadId clientId : UInt32) :
    (Sized lib text.length ∧ stdStringFormat lib text = .ok text ↔
      text.length ≠ lib.capacity ∧ nul ∉ text) ∧
    (Sized lib text.length ∧ outputConsole lib text = .ok (text ++ [endl]) ↔
      text.length ≠ lib.capacity ∧ nul ∉ text) ∧
    (Sized lib (prefixText threadId clientId).length ∧ Sized lib text.length ∧
        SessionTcp.outputConsole lib threadId clientId text =
          .ok (prefixText threadId clientId ++ text ++ [endl]) ↔
      (prefixText threadId clientId).length ≠ lib.capacity ∧ text.length ≠ lib.capacity ∧
        nul ∉ text) := by
  rw [stdStringFormat_iff, outputConsole_iff, sessionOutputConsole_iff, sized_iff, sized_iff]
  refine ⟨?_, ?_, ?_⟩ <;> tauto

/-- The library of Visual C++: 15 characters in the string itself, and blocks of
a multiple of 16 bytes. -/
def visualC : StringLibrary where
  capacity := 15
  resized k := k ||| 15
  atLeast _ := Nat.left_le_or
  noShrink _ := Nat.right_le_or

/-- A text that `std_string_format` gets from `handler_read_body`. -/
theorem format_iff_visualC :
    stdStringFormat visualC "new msg received : size = 3".toList =
      .ok "new msg received : size = 3".toList :=
  ((format_iff visualC _ 4711 1).1.mpr (by decide)).2

/-- A text of 15 characters gets a size of 15. -/
theorem fifteen_characters :
    ¬ ∀ lib text, Sized lib text.length ∧ outputConsole lib text = .ok (text ++ [endl]) := by
  intro h
  have henough := (h visualC "client is gone.".toList).1.enough
  revert henough
  decide

end AsioTcp.StringFormat
