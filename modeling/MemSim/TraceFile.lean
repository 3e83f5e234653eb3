import Mathlib.Data.List.DropRight
import Mathlib.Data.List.TakeWhile
import MemSim.Trace

/-!
# Files of accesses

A trace file holds one access a line, between comment lines.  What the reader
delivers does not depend on where the comments stand, but it does depend on how the
file ends.
-/

set_option autoImplicit false

namespace MemSim

open Exec

/-! ## The lines of a file -/

def Numeral (base number : Nat) (digits : List Char) : Prop :=
  digits ≠ [] ∧ (∀ c ∈ digits, isDigit base c = true) ∧ digitsValue base digits = number

instance (base number : Nat) (digits : List Char) : Decidable (Numeral base number digits) :=
  decidable_of_iff ((!digits.isEmpty && (digits.all (isDigit base) &&
    digitsValue base digits == number)) = true) (by simp [Numeral])

/-- A comment line, without its newline. -/
structure IsComment (text : List Char) : Prop where
  marked : text.head? = some '='
  oneLine : '\n' ∉ text
  fits : text.length < 255

/-- A line `type hex-address decimal-value`, without its newline. -/
structure IsAccessLine (access : MemAccess) (text : List Char) : Prop where
  address : access.virtualAddress < 2 ^ vaddrBits
  offset : access.virtualAddress % pageSize ≤ 15
  written : ∃ typeChar address value, accessType typeChar = some access.type ∧
    Numeral 16 access.virtualAddress address ∧ Numeral 10 access.value.toNat value ∧
    text = typeChar :: ' ' :: (address ++ ' ' :: value)
  fits : text.length < 255

inductive TraceLine where
  | comment (text : List Char) (isComment : IsComment text)
  | access (access : MemAccess) (text : List Char) (isAccess : IsAccessLine access text)

def TraceLine.text : TraceLine → List Char
  | .comment text _ => text
  | .access _ text _ => text

def TraceLine.access? : TraceLine → Option MemAccess
  | .comment _ _ => none
  | .access given _ _ => some given

/-- The file of the lines; its last line ends in a newline if `terminated`. -/
def fileText (terminated : Bool) : List TraceLine → List Char
  | [] => []
  | [line] => line.text ++ if terminated then ['\n'] else []
  | line :: next :: lines => line.text ++ '\n' :: fileText terminated (next :: lines)

def accesses (lines : List TraceLine) : List MemAccess := lines.filterMap TraceLine.access?

/-- Calls of the reader return the accesses one by one, and then -1. -/
def Delivers : List MemAccess → Trace → Prop
  | [], trace => ∃ error after, traceRead.run trace = .ok (.error error) after
  | access :: accesses, trace =>
      ∃ after, traceRead.run trace = .ok (.ok access) after ∧ Delivers accesses after

theorem delivers_congr {first second : Trace} (same : traceRead.run first = traceRead.run second)
    (expected : List MemAccess) : Delivers expected first ↔ Delivers expected second := by
  cases expected <;> simp only [Delivers, same]

/-! ## Numbers -/

section Numbers
variable {base number : Nat} {digits : List Char} {c : Char}

theorem isDigit_range (digit : isDigit base c = true) :
    (48 ≤ c.toNat ∧ c.toNat ≤ 70) ∨ (97 ≤ c.toNat ∧ c.toNat ≤ 102) := by
  have bounds {low high : Char} (between : low ≤ c ∧ c ≤ high) :
      low.toNat ≤ c.toNat ∧ c.toNat ≤ high.toNat := by
    rwa [Char.le_def, Char.le_def, UInt32.le_iff_toNat_le, UInt32.le_iff_toNat_le] at between
  unfold isDigit digitValue at digit
  split at digit
  · rename_i value known
    split at known
    · rename_i decimal
      have := bounds decimal
      simp only [Char.reduceToNat] at this
      omega
    · split at known
      · rename_i lower
        have := bounds lower
        simp only [Char.reduceToNat] at this
        omega
      · split at known
        · rename_i upper
          have := bounds upper
          simp only [Char.reduceToNat] at this
          omega
        · contradiction
  · contradiction

theorem isSpace_isDigit (space : isSpace c = true) : isDigit base c = false := by
  cases digit : isDigit base c with
  | false => rfl
  | true =>
      have range := isDigit_range digit
      simp only [isSpace, Bool.or_eq_true, Bool.and_eq_true, decide_eq_true_eq] at space
      omega

theorem isSpace_le (space : isSpace c = true) : c.toNat ≤ 32 := by
  simp only [isSpace, Bool.or_eq_true, Bool.and_eq_true, decide_eq_true_eq] at space
  omega

theorem scanPrefix_eq_self {rest : List Char}
    (other : ∀ c, rest.tail.head? = some c → c ≠ 'x' ∧ c ≠ 'X') : scanPrefix base rest = rest := by
  unfold scanPrefix
  split
  · exact absurd rfl (other _ rfl).1
  · exact absurd rfl (other _ rfl).2
  · rfl

theorem scanUnsigned_numeral (numeral : Numeral base number digits) (small : number < 2 ^ 64)
    (space : isSpace c = true) (rest : List Char) :
    scanUnsigned base (digits ++ c :: rest) = some (number, c :: rest) := by
  obtain ⟨nonempty, all, value⟩ := numeral
  obtain ⟨first, digits, rfl⟩ := List.exists_cons_of_ne_nil nonempty
  have range := isDigit_range (all first List.mem_cons_self)
  have noSpace : skipSpace (first :: digits ++ c :: rest) = first :: digits ++ c :: rest := by
    have visible : isSpace first = false := by
      simp only [isSpace, Bool.or_eq_false_iff, Bool.and_eq_false_iff, decide_eq_false_iff_not]
      omega
    simp [skipSpace, visible]
  have noSign : scanSign (first :: digits ++ c :: rest) =
      (false, first :: digits ++ c :: rest) := by
    unfold scanSign
    split
    · rename_i same
      have minus : first.toNat = 45 := congrArg Char.toNat (List.cons.inj same).1
      omega
    · rename_i same
      have plus : first.toNat = 43 := congrArg Char.toNat (List.cons.inj same).1
      omega
    · rfl
  have noPrefix : scanPrefix base (first :: digits ++ c :: rest) =
      first :: digits ++ c :: rest := by
    apply scanPrefix_eq_self
    intro second here
    have allowed : second.toNat ≤ 70 ∨ (97 ≤ second.toNat ∧ second.toNat ≤ 102) := by
      cases digits with
      | nil =>
          cases Option.some.inj here
          have := isSpace_le space
          omega
      | cons next digits =>
          cases Option.some.inj here
          have := isDigit_range (all second (by simp))
          omega
    constructor
    · intro same
      have small : second.toNat = 120 := congrArg Char.toNat same
      omega
    · intro same
      have capital : second.toNat = 88 := congrArg Char.toNat same
      omega
  have ends : isDigit base c = false := isSpace_isDigit space
  have taken : (first :: digits ++ c :: rest).takeWhile (isDigit base) = first :: digits := by
    rw [List.takeWhile_append_of_pos all]
    simp [ends]
  have left : (first :: digits ++ c :: rest).dropWhile (isDigit base) = c :: rest := by
    rw [List.dropWhile_append_of_pos all]
    simp [ends]
  have positive : strtoulValue false number = number := by
    unfold strtoulValue
    rw [if_neg (Nat.not_le.mpr small), if_neg Bool.false_ne_true]
  simp only [scanUnsigned, noSpace, noSign, noPrefix, taken, left, value, positive]
  rfl

/-- A conversion of `sscanf` and a blank of its format skip the same white space. -/
theorem scanUnsigned_skipSpace (space : isSpace c = true) (rest : List Char) :
    scanUnsigned base (skipSpace (c :: rest)) = scanUnsigned base rest := by
  have skipped : skipSpace (skipSpace (c :: rest)) = skipSpace rest := by
    simp only [skipSpace, List.dropWhile_cons_of_pos space, List.dropWhile_idempotent _]
  simp only [scanUnsigned, skipped]

end Numbers

/-! ## The access in a line -/

section AccessLine
variable {access : MemAccess} {text : List Char}

theorem accessType_letter {c : Char} {type : AccessType} (known : accessType c = some type) :
    c ∈ ['I', 'L', 'S', 'M'] := by
  unfold accessType at known
  split at known <;> simp_all

theorem IsAccessLine.chars (isAccess : IsAccessLine access text) :
    ∀ c ∈ text, c.toNat = 32 ∨ (48 ≤ c.toNat ∧ c.toNat ≤ 102) := by
  obtain ⟨typeChar, address, value, known, ⟨-, hex, -⟩, ⟨-, decimal, -⟩, rfl⟩ := isAccess.written
  have letter : 48 ≤ typeChar.toNat ∧ typeChar.toNat ≤ 102 := by
    have := accessType_letter known
    simp only [List.mem_cons, List.not_mem_nil, or_false] at this
    obtain rfl | rfl | rfl | rfl := this <;> decide
  intro c mem
  simp only [List.mem_cons, List.mem_append] at mem
  obtain rfl | rfl | mem | rfl | mem := mem
  · exact Or.inr letter
  · exact Or.inl rfl
  · have := isDigit_range (hex c mem)
    omega
  · exact Or.inl rfl
  · have := isDigit_range (decimal c mem)
    omega

theorem IsAccessLine.unmarked (isAccess : IsAccessLine access text) : text.head? ≠ some '=' := by
  obtain ⟨typeChar, address, value, known, -, -, rfl⟩ := isAccess.written
  intro marked
  cases Option.some.inj marked
  exact absurd (accessType_letter known) (by decide)

theorem IsAccessLine.oneLine (isAccess : IsAccessLine access text) : '\n' ∉ text := by
  intro mem
  exact absurd (isAccess.chars _ mem) (by decide)

theorem IsAccessLine.scanned (isAccess : IsAccessLine access text) :
    ∃ typeChar, accessType typeChar = some access.type ∧
      scanLine (text ++ ['\n']) = some (typeChar, access.virtualAddress, access.value) := by
  have whole : (text ++ ['\n']).takeWhile (fun c => c.toNat ≠ 0) = text ++ ['\n'] := by
    apply List.takeWhile_eq_self_iff.mpr
    intro c mem
    obtain mem | mem := List.mem_append.mp mem
    · have := isAccess.chars c mem
      simp only [decide_eq_true_eq]
      omega
    · cases List.mem_singleton.mp mem
      decide
  have small := isAccess.address
  obtain ⟨typeChar, address, value, known, hex, decimal, rfl⟩ := isAccess.written
  have space : isSpace ' ' = true := rfl
  have newline : isSpace '\n' = true := rfl
  have first : scanUnsigned 16 (skipSpace (' ' :: (address ++ ' ' :: (value ++ ['\n'])))) =
      some (access.virtualAddress, ' ' :: (value ++ ['\n'])) := by
    rw [scanUnsigned_skipSpace space]
    apply scanUnsigned_numeral hex _ space
    calc access.virtualAddress
      _ < 2 ^ vaddrBits := small
      _ ≤ 2 ^ 64 := by decide
  have second : scanUnsigned 10 (skipSpace (' ' :: (value ++ ['\n']))) =
      some (access.value.toNat, ['\n']) := by
    rw [scanUnsigned_skipSpace space]
    apply scanUnsigned_numeral decimal _ newline
    have := access.value.toNat_lt
    omega
  refine ⟨typeChar, known, ?_⟩
  have buffer : typeChar :: ' ' :: (address ++ ' ' :: value) ++ ['\n'] =
      typeChar :: (' ' :: (address ++ ' ' :: (value ++ ['\n']))) := by
    simp
  simp only [scanLine, whole]
  simp only [buffer, first, second, UInt8.ofNat_toNat]

theorem IsAccessLine.readAccess (isAccess : IsAccessLine access text) {trace : Trace}
    (buffer : trace.buffer = text ++ ['\n']) : readAccess trace = .ok access := by
  obtain ⟨typeChar, known, scanned⟩ := isAccess.scanned
  have offset := isAccess.offset
  have inside : ¬ access.virtualAddress % pageSize > simulatedFrameSize := by
    rw [simulatedFrameSize_eq]
    omega
  unfold MemSim.readAccess
  rw [buffer, scanned]
  simp only [known, if_neg inside]

end AccessLine

/-! ## Lines of a stream -/

section Lines
variable {text : List Char}

theorem takeLine_newline (oneLine : '\n' ∉ text) (rest : List Char) {limit : Nat}
    (fits : text.length < limit) :
    takeLine limit (text ++ '\n' :: rest) = (text ++ ['\n'], rest, false) := by
  induction text generalizing limit with
  | nil =>
      obtain ⟨limit, rfl⟩ := Nat.exists_eq_succ_of_ne_zero (Nat.ne_zero_of_lt fits)
      rfl
  | cons c text ih =>
      obtain ⟨limit, rfl⟩ := Nat.exists_eq_succ_of_ne_zero (Nat.ne_zero_of_lt fits)
      obtain ⟨apart, oneLine⟩ := not_or.mp (List.mem_cons.not.mp oneLine)
      have taken := ih oneLine (Nat.lt_of_succ_lt_succ fits)
      simp only [List.cons_append, takeLine, if_neg (Ne.symm apart), taken]

theorem takeLine_end (oneLine : '\n' ∉ text) {limit : Nat} (fits : text.length < limit) :
    takeLine limit text = (text, [], true) := by
  induction text generalizing limit with
  | nil =>
      obtain ⟨limit, rfl⟩ := Nat.exists_eq_succ_of_ne_zero (Nat.ne_zero_of_lt fits)
      rfl
  | cons c text ih =>
      obtain ⟨limit, rfl⟩ := Nat.exists_eq_succ_of_ne_zero (Nat.ne_zero_of_lt fits)
      obtain ⟨apart, oneLine⟩ := not_or.mp (List.mem_cons.not.mp oneLine)
      have taken := ih oneLine (Nat.lt_of_succ_lt_succ fits)
      simp only [takeLine, if_neg (Ne.symm apart), taken]

theorem takeLine_length (limit : Nat) (input : List Char) :
    (takeLine limit input).1.length + (takeLine limit input).2.1.length = input.length := by
  induction input generalizing limit with
  | nil => cases limit <;> rfl
  | cons c input ih =>
      cases limit with
      | zero => simp [takeLine]
      | succ limit =>
          have := ih limit
          by_cases newline : c = '\n'
          · simp [takeLine, newline, Nat.add_comm]
          · simp only [takeLine, if_neg newline, List.length_cons]
            change (takeLine limit input).1.length + 1 + (takeLine limit input).2.1.length = _
            omega

theorem fgets_eq (size : Nat) (stream : Stream) :
    fgets size stream =
      let (line, rest, eof) := takeLine (size - 1) stream.rest
      (if line = [] then none else some line, ⟨rest, stream.eof || eof⟩) := by
  unfold fgets
  generalize takeLine (size - 1) stream.rest = taken
  obtain ⟨line, rest, eof⟩ := taken
  cases line with
  | nil => rfl
  | cons c line => rfl

theorem fgets_line (oneLine : '\n' ∉ text) (fits : text.length < 255) (rest : List Char) :
    fgets 256 ⟨text ++ '\n' :: rest, false⟩ = (some (text ++ ['\n']), ⟨rest, false⟩) := by
  simp [fgets_eq, takeLine_newline oneLine rest fits]

theorem fgets_last (oneLine : '\n' ∉ text) (fits : text.length < 255) (nonempty : text ≠ []) :
    fgets 256 ⟨text, false⟩ = (some text, ⟨[], true⟩) := by
  simp [fgets_eq, takeLine_end oneLine fits, nonempty]

theorem fgets_shorter {size : Nat} {before after : Stream} {line : List Char}
    (read : fgets size before = (some line, after)) : after.rest.length < before.rest.length := by
  have total := takeLine_length (size - 1) before.rest
  rw [fgets_eq] at read
  generalize takeLine (size - 1) before.rest = taken at read total
  obtain ⟨filled, rest, eof⟩ := taken
  simp only [Prod.mk.injEq] at read
  obtain ⟨stored, rfl⟩ := read
  split at stored
  · contradiction
  · rename_i nonempty
    have := List.length_pos_of_ne_nil nonempty
    change rest.length < before.rest.length
    change filled.length + rest.length = before.rest.length at total
    omega

end Lines

/-! ## The loop over comment lines -/

theorem skipComments_fuel {fuel : Nat} {trace : Trace}
    (enough : trace.file.rest.length < fuel) (more : Nat) :
    (skipComments (fuel + more)).run trace = (skipComments fuel).run trace := by
  induction fuel generalizing trace with
  | zero => omega
  | succ fuel ih =>
      rw [Nat.add_right_comm]
      simp only [skipComments, EStateM.run_bind, EStateM.run_get]
      cases read : fgets 256 trace.file with
      | mk line file =>
          cases line with
          | none => rfl
          | some line =>
              have shorter := fgets_shorter read
              simp only [EStateM.run_bind, EStateM.run_set]
              split
              · apply ih
                change file.rest.length < fuel
                omega
              · rfl

section Skips
variable {trace : Trace} {text : List Char} {rest : List Char}

theorem skipComments_comment (comment : IsComment text)
    (file : trace.file = ⟨text ++ '\n' :: rest, false⟩) :
    (skipComments (trace.file.rest.length + 1)).run trace =
      (skipComments (rest.length + 1)).run
        { trace with file := ⟨rest, false⟩, buffer := text ++ ['\n'] } := by
  have read := fgets_line comment.oneLine comment.fits rest
  have marked : (text ++ ['\n']).head? = some '=' := by
    rw [List.head?_append, comment.marked]
    rfl
  have length : trace.file.rest.length = rest.length + 1 + text.length := by
    simp only [file, List.length_append, List.length_cons]
    omega
  have fuel := @skipComments_fuel (rest.length + 1)
    { trace with file := ⟨rest, false⟩, buffer := text ++ ['\n'] } (Nat.lt_succ_self _) text.length
  rw [← fuel, length, skipComments]
  simp only [EStateM.run_bind, EStateM.run_get, file, read, EStateM.run_set, if_pos marked]

theorem skipComments_access {access : MemAccess} (isAccess : IsAccessLine access text)
    (file : trace.file = ⟨text ++ '\n' :: rest, false⟩) :
    (skipComments (trace.file.rest.length + 1)).run trace =
      .ok () { trace with file := ⟨rest, false⟩, buffer := text ++ ['\n'] } := by
  have read := fgets_line isAccess.oneLine isAccess.fits rest
  have unmarked : (text ++ ['\n']).head? ≠ some '=' := by
    obtain ⟨typeChar, _, _, -, -, -, shape⟩ := isAccess.written
    have head := isAccess.unmarked
    rw [shape] at head ⊢
    exact head
  rw [skipComments]
  simp only [EStateM.run_bind, EStateM.run_get, file, read, EStateM.run_set, if_neg unmarked,
    EStateM.run_pure]

theorem skipComments_last (oneLine : '\n' ∉ text) (fits : text.length < 255)
    (file : trace.file = ⟨text, false⟩) :
    ∃ after, (skipComments (trace.file.rest.length + 1)).run trace = .ok () after ∧
      after.file.eof = true := by
  have ended (fuel : Nat) (trace : Trace) (file : trace.file.rest = []) :
      (skipComments (fuel + 1)).run trace = .ok () { trace with file := ⟨[], true⟩ } := by
    simp [skipComments, fgets_eq, takeLine, file]
  cases text with
  | nil => exact ⟨_, ended _ trace (by rw [file]), rfl⟩
  | cons c text =>
      have read := fgets_last oneLine fits (List.cons_ne_nil _ _)
      have length : trace.file.rest.length = text.length + 1 := by simp [file]
      rw [length, skipComments]
      simp only [EStateM.run_bind, EStateM.run_get, file, read, EStateM.run_set]
      split
      · exact ⟨_, ended text.length _ rfl, rfl⟩
      · exact ⟨_, rfl, rfl⟩

end Skips

/-! ## One call of the reader -/

section Reads
variable {trace : Trace} {text : List Char} {rest : List Char}

theorem traceRead_comment (comment : IsComment text)
    (file : trace.file = ⟨text ++ '\n' :: rest, false⟩) :
    traceRead.run trace =
      traceRead.run { trace with file := ⟨rest, false⟩, buffer := text ++ ['\n'] } := by
  have skipped := @skipComments_comment
    { trace with lineNumber := trace.lineNumber + 1 } text rest comment file
  simp only [traceRead, EStateM.run_bind, EStateM.run_modify, EStateM.run_get, skipped]

theorem traceRead_access {access : MemAccess} (isAccess : IsAccessLine access text)
    (file : trace.file = ⟨text ++ '\n' :: rest, false⟩) :
    traceRead.run trace =
      .ok (.ok access) ⟨⟨rest, false⟩, text ++ ['\n'], trace.lineNumber + 1⟩ := by
  have left := @skipComments_access
    { trace with lineNumber := trace.lineNumber + 1 } text rest access isAccess file
  simp only [traceRead, EStateM.run_bind, EStateM.run_modify, EStateM.run_get, left]
  simp [isAccess.readAccess]

theorem traceRead_last (oneLine : '\n' ∉ text) (fits : text.length < 255)
    (file : trace.file = ⟨text, false⟩) :
    ∃ after, traceRead.run trace = .ok (.error .endOfFile) after := by
  obtain ⟨after, skipped, eof⟩ := @skipComments_last
    { trace with lineNumber := trace.lineNumber + 1 } text oneLine fits file
  refine ⟨after, ?_⟩
  simp only [traceRead, EStateM.run_bind, EStateM.run_modify, EStateM.run_get, skipped]
  simp [eof]

end Reads

/-! ## The whole file -/

theorem TraceLine.oneLine : (line : TraceLine) → '\n' ∉ line.text
  | .comment _ isComment => isComment.oneLine
  | .access _ _ isAccess => isAccess.oneLine

theorem TraceLine.fits : (line : TraceLine) → line.text.length < 255
  | .comment _ isComment => isComment.fits
  | .access _ _ isAccess => isAccess.fits

section WholeFile
variable {terminated : Bool} {lines : List TraceLine} {trace : Trace}

theorem fileText_cons (line : TraceLine) (more : terminated = true ∨ lines ≠ []) :
    fileText terminated (line :: lines) = line.text ++ '\n' :: fileText terminated lines := by
  cases lines with
  | nil =>
      obtain rfl | more := more
      · rfl
      · exact absurd rfl more
  | cons next lines => rfl

/-- The last line is no access without a newline. -/
def EndsWell (terminated : Bool) (lines : List TraceLine) : Prop :=
  terminated = true ∨ ∀ line, lines.getLast? = some line → line.access? = none

theorem endsWell_cons (line : TraceLine) (more : terminated = true ∨ lines ≠ []) :
    EndsWell terminated (line :: lines) ↔ EndsWell terminated lines := by
  unfold EndsWell
  obtain rfl | more := more
  · simp
  · rw [List.getLast?_cons_of_ne_nil more]

theorem delivers_iff (file : trace.file = ⟨fileText terminated lines, false⟩) :
    Delivers (accesses lines) trace ↔ EndsWell terminated lines := by
  induction lines generalizing trace with
  | nil =>
      obtain ⟨after, run⟩ := traceRead_last List.not_mem_nil (by decide) file
      exact ⟨fun _ => Or.inr (by simp), fun _ => ⟨_, after, run⟩⟩
  | cons line lines ih =>
      by_cases more : terminated = true ∨ lines ≠ []
      · rw [fileText_cons line more] at file
        rw [endsWell_cons line more]
        cases line with
        | comment text isComment =>
            rw [delivers_congr (traceRead_comment isComment file)]
            exact ih rfl
        | access given text isAccess =>
            have run := traceRead_access isAccess file
            constructor
            · intro delivers
              obtain ⟨after, run', delivers⟩ := delivers
              rw [run] at run'
              cases run'
              exact (ih rfl).mp delivers
            · intro ends
              exact ⟨_, run, (ih rfl).mpr ends⟩
      · obtain ⟨open', rfl⟩ : terminated = false ∧ lines = [] := by simpa using more
        subst open'
        obtain ⟨after, run⟩ := traceRead_last line.oneLine line.fits
          (by simpa [fileText] using file)
        cases line with
        | comment text isComment =>
            exact ⟨fun _ => Or.inr (by simp [TraceLine.access?]), fun _ => ⟨_, after, run⟩⟩
        | access given text isAccess =>
            constructor
            · intro delivers
              obtain ⟨after', run', -⟩ := delivers
              rw [run] at run'
              cases run'
            · intro ends
              obtain ends | ends := ends
              · exact absurd ends Bool.false_ne_true
              · exact absurd (ends _ rfl) (Option.some_ne_none given)

end WholeFile

/-- The reader delivers the accesses of a file, unless an access is on a last line
that has no newline. -/
theorem traceRead_delivers_iff (terminated : Bool) (lines : List TraceLine) :
    Delivers (accesses lines) (traceCreate (fileText terminated lines)) ↔
      terminated = true ∨ ∀ line, lines.getLast? = some line → line.access? = none :=
  delivers_iff rfl

/-- The line `L 0 0`. -/
theorem isAccessLine_load : IsAccessLine ⟨.load, 0, 0⟩ ['L', ' ', '0', ' ', '0'] := by
  exact ⟨by decide, by decide, ⟨'L', ['0'], ['0'], rfl, by decide, by decide, rfl⟩, by decide⟩

theorem unterminated_access_lost :
    ¬ ∀ terminated lines,
      Delivers (accesses lines) (traceCreate (fileText terminated lines)) := by
  intro claim
  obtain ⟨after, run, -⟩ := claim false [.access _ _ isAccessLine_load]
  obtain ⟨after', ended⟩ := @traceRead_last (traceCreate ['L', ' ', '0', ' ', '0']) _
    isAccessLine_load.oneLine isAccessLine_load.fits rfl
  cases run.symm.trans ended

end MemSim
