import MemSim.Def

/-!
# The trace reader

`csc369_trace.c`: reading the trace file line by line.  `fgets`, `feof` and
`sscanf` are given the meaning of the C standard; where a number does not fit
the type it is converted to, `strtoul` decides, as in the common C libraries.  A
character stands for one byte of the file.
-/

set_option autoImplicit false

namespace MemSim

open Exec

/-! ## The C library -/

/-- An input stream: what has not been read yet, and the end-of-file flag. -/
structure Stream where
  rest : List Char
  eof : Bool
  deriving DecidableEq, Repr

/-- At most `limit` characters, up to and including a newline; what remains; and
whether the end of the file was met. -/
def takeLine : (limit : Nat) → List Char → List Char × List Char × Bool
  | 0, rest => ([], rest, false)
  | _ + 1, [] => ([], [], true)
  | limit + 1, c :: rest =>
      if c = '\n' then ([c], rest, false)
      else
        let (line, remaining, eof) := takeLine limit rest
        (c :: line, remaining, eof)

/-- `fgets(buffer, size, stream)`: the line stored, or `none` for `NULL`, when the
file ended before any character was read. -/
def fgets (size : Nat) (stream : Stream) : Option (List Char) × Stream :=
  match takeLine (size - 1) stream.rest with
  | ([], rest, eof) => (none, ⟨rest, stream.eof || eof⟩)
  | (line, rest, eof) => (some line, ⟨rest, stream.eof || eof⟩)

/-- `isspace` in the C locale. -/
def isSpace (c : Char) : Bool := c.toNat = 32 || (9 ≤ c.toNat && c.toNat ≤ 13)

def skipSpace (input : List Char) : List Char := input.dropWhile isSpace

def digitValue (c : Char) : Option Nat :=
  if '0' ≤ c ∧ c ≤ '9' then some (c.toNat - '0'.toNat)
  else if 'a' ≤ c ∧ c ≤ 'f' then some (c.toNat - 'a'.toNat + 10)
  else if 'A' ≤ c ∧ c ≤ 'F' then some (c.toNat - 'A'.toNat + 10)
  else none

def isDigit (base : Nat) (c : Char) : Bool :=
  match digitValue c with
  | some value => value < base
  | none => false

def digitsValue (base : Nat) (digits : List Char) : Nat :=
  digits.foldl (fun value c => value * base + (digitValue c).getD 0) 0

/-- `strtoul` saturates, and negates modulo 2^64. -/
def strtoulValue (negative : Bool) (value : Nat) : Nat :=
  if 2 ^ 64 ≤ value then 2 ^ 64 - 1
  else if negative then (2 ^ 64 - value) % 2 ^ 64
  else value

def scanSign : List Char → Bool × List Char
  | '-' :: rest => (true, rest)
  | '+' :: rest => (false, rest)
  | rest => (false, rest)

/-- The optional prefix of a hexadecimal number. -/
def scanPrefix (base : Nat) : List Char → List Char
  | '0' :: 'x' :: rest => if base = 16 then rest else '0' :: 'x' :: rest
  | '0' :: 'X' :: rest => if base = 16 then rest else '0' :: 'X' :: rest
  | rest => rest

/-- A `%zx` or `%u` conversion: the value, and what follows it. -/
def scanUnsigned (base : Nat) (input : List Char) : Option (Nat × List Char) :=
  let (negative, input) := scanSign (skipSpace input)
  let input := scanPrefix base input
  let digits := input.takeWhile (isDigit base)
  if digits.isEmpty then none
  else some (strtoulValue negative (digitsValue base digits), input.dropWhile (isDigit base))

/-- `sscanf(buffer, "%c %zx %hhu", ..)` when it converts all three fields.  A
string ends at its first zero byte. -/
def scanLine (buffer : List Char) : Option (Char × Nat × UInt8) :=
  match buffer.takeWhile (fun c => c.toNat ≠ 0) with
  | [] => none
  | type :: input =>
      match scanUnsigned 16 (skipSpace input) with
      | none => none
      | some (virtualAddress, input) =>
          match scanUnsigned 10 (skipSpace input) with
          | none => none
          | some (value, _) => some (type, virtualAddress, UInt8.ofNat value)

/-! ## The reader -/

/-- `CSC369_Trace`. -/
structure Trace where
  file : Stream
  buffer : List Char
  lineNumber : Nat
  deriving DecidableEq, Repr

/-- The trace `CSC369_TraceCreate` makes of a file. -/
def traceCreate (file : List Char) : Trace := ⟨⟨file, false⟩, [], 0⟩

/-- The cases in which `CSC369_TraceRead` returns -1, with what it logs. -/
inductive TraceError where
  | endOfFile
  | invalidLine (lineNumber : Nat) (buffer : List Char)
  | invalidAccessType (lineNumber : Nat) (buffer : List Char)
  | invalidVirtualAddress (lineNumber : Nat) (buffer : List Char)
  deriving DecidableEq, Repr

/-- The loop that skips comment lines; `fuel` bounds the calls of `fgets`. -/
def skipComments : (fuel : Nat) → Exec Trace Unit
  | 0 => stop .outOfFuel
  | fuel + 1 => do
      let trace ← get
      match fgets 256 trace.file with
      | (none, file) => set { trace with file := file }
      | (some line, file) => do
          set { trace with file := file, buffer := line }
          if line.head? = some '=' then skipComments fuel else pure ()

def accessType : Char → Option AccessType
  | 'I' => some .instructionFetch
  | 'L' => some .load
  | 'S' => some .store
  | 'M' => some .modify
  | _ => none

/-- What `CSC369_TraceRead` makes of the line in the buffer. -/
def readAccess (trace : Trace) : Except TraceError MemAccess :=
  match scanLine trace.buffer with
  | none => .error (.invalidLine trace.lineNumber trace.buffer)
  | some (typeChar, virtualAddress, value) =>
      match accessType typeChar with
      | none => .error (.invalidAccessType trace.lineNumber trace.buffer)
      | some type =>
          if virtualAddress % pageSize > simulatedFrameSize then
            .error (.invalidVirtualAddress trace.lineNumber trace.buffer)
          else .ok ⟨type, virtualAddress, value⟩

/-- `CSC369_TraceRead`; the access stands for the result 0. -/
def traceRead : Exec Trace (Except TraceError MemAccess) := do
  modify fun trace => { trace with lineNumber := trace.lineNumber + 1 }
  let trace ← get
  skipComments (trace.file.rest.length + 1)
  let trace ← get
  if trace.file.eof then pure (.error .endOfFile)
  else pure (readAccess trace)

def Accepts (trace : Trace) (access : MemAccess) : Prop :=
  ∃ after, traceRead.run trace = .ok (.ok access) after

/-! ## What is accepted -/

theorem strtoulValue_lt (negative : Bool) (value : Nat) : strtoulValue negative value < 2 ^ 64 := by
  unfold strtoulValue
  split
  · omega
  · split <;> omega

theorem scanUnsigned_lt {base value : Nat} {input rest : List Char}
    (scanned : scanUnsigned base input = some (value, rest)) : value < 2 ^ 64 := by
  simp only [scanUnsigned] at scanned
  split at scanned
  · contradiction
  · cases Option.some.inj scanned
    exact strtoulValue_lt _ _

theorem scanLine_lt {buffer : List Char} {type : Char} {virtualAddress : Nat} {value : UInt8}
    (scanned : scanLine buffer = some (type, virtualAddress, value)) :
    virtualAddress < 2 ^ 64 := by
  unfold scanLine at scanned
  split at scanned
  · contradiction
  · rename_i _ input _
    cases first : scanUnsigned 16 (skipSpace input) with
    | none => simp [first] at scanned
    | some pair =>
        obtain ⟨address, input⟩ := pair
        simp only [first] at scanned
        cases second : scanUnsigned 10 (skipSpace input) with
        | none => simp [second] at scanned
        | some pair =>
            simp only [second, Option.some.injEq, Prod.mk.injEq] at scanned
            rw [← scanned.2.1]
            exact scanUnsigned_lt first

theorem readAccess_eq_ok {trace : Trace} {access : MemAccess}
    (read : readAccess trace = .ok access) :
    access.virtualAddress < 2 ^ 64 ∧ access.virtualAddress % pageSize ≤ simulatedFrameSize := by
  unfold readAccess at read
  cases scanned : scanLine trace.buffer with
  | none => simp [scanned] at read
  | some fields =>
      obtain ⟨typeChar, virtualAddress, value⟩ := fields
      simp only [scanned] at read
      cases known : accessType typeChar with
      | none => simp [known] at read
      | some type =>
          simp only [known] at read
          split at read
          · contradiction
          · rename_i inside
            cases Except.ok.inj read
            exact ⟨scanLine_lt scanned, Nat.le_of_not_lt inside⟩

/-- The address of an accepted access is a `uint64_t` with an offset that passes
the reader's own check. -/
theorem accepts_bounds {trace : Trace} {access : MemAccess} (accepted : Accepts trace access) :
    access.virtualAddress < 2 ^ 64 ∧ access.virtualAddress % pageSize ≤ simulatedFrameSize := by
  obtain ⟨after, run⟩ := accepted
  simp only [traceRead] at run
  obtain ⟨_, _, -, run⟩ := bind_ok_iff.mp run
  obtain ⟨_, _, -, run⟩ := bind_ok_iff.mp run
  obtain ⟨_, _, -, run⟩ := bind_ok_iff.mp run
  obtain ⟨last, _, -, run⟩ := bind_ok_iff.mp run
  split at run
  · simp at run
  · simp only [EStateM.run_pure, EStateM.Result.ok.injEq] at run
    exact readAccess_eq_ok run.1

end MemSim
