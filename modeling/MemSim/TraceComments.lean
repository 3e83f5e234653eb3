import MemSim.TraceFile

/-!
# Comment lines of any length

`fgets` stores a line in pieces of at most 255 characters, and the reader takes
every piece for a line.  So the pieces are what decides whether an inserted comment
line changes what the calls of the reader return.
-/

set_option autoImplicit false

namespace MemSim

open Exec

/-! ## Lines and pieces -/

def FileLine : Type := { text : List Char // '\n' ∉ text }

def FileLine.comment (line : FileLine) : FileLine :=
  ⟨'=' :: line.val, List.not_mem_cons_of_ne_of_not_mem (by decide) line.property⟩

def linesText (lines : List FileLine) : List Char := lines.flatMap fun line => line.val ++ ['\n']

def FileLine.pieces (line : FileLine) : List (List Char) :=
  (List.range (line.val.length / 255 + 1)).map fun index =>
    ((line.val ++ ['\n']).drop (255 * index)).take 255

def linePieces (lines : List FileLine) : List (List Char) := lines.flatMap FileLine.pieces

def unmarkedPieces (lines : List FileLine) : List (List Char) :=
  (linePieces lines).filter fun piece => piece.head? ≠ some '='

def pieceAccess (piece : List Char) : Option MemAccess :=
  (readAccess ⟨⟨[], false⟩, piece, 0⟩).toOption

/-! ## Calls of the reader -/

def traceReads : Nat → Exec Trace (List (Except TraceError MemAccess))
  | 0 => pure []
  | calls + 1 => do
      let result ← traceRead
      let results ← traceReads calls
      pure (result :: results)

/-- For any number of calls, both files give the same accesses and the same
results. -/
def SameReturns (first second : List Char) : Prop :=
  ∀ calls, ∃ results after results' after',
    (traceReads calls).run (traceCreate first) = .ok results after ∧
    (traceReads calls).run (traceCreate second) = .ok results' after' ∧
    results.map Except.toOption = results'.map Except.toOption

/-- The lines are still to be read, or the end of the file was met. -/
def Trace.Before (trace : Trace) (lines : List FileLine) : Prop :=
  trace.file = ⟨linesText lines, false⟩ ∨ lines = [] ∧ trace.file = ⟨[], true⟩

section Pieces
variable {line : FileLine} {lines : List FileLine}

theorem pieceAccess_eq (trace : Trace) :
    (readAccess trace).toOption = pieceAccess trace.buffer := by
  unfold pieceAccess readAccess
  dsimp only
  cases scanLine trace.buffer with
  | none => rfl
  | some fields =>
      obtain ⟨typeChar, virtualAddress, value⟩ := fields
      dsimp only
      cases accessType typeChar with
      | none => rfl
      | some type =>
          dsimp only
          split
          · rfl
          · rfl

theorem pieceAccess_marked {piece : List Char} (marked : piece.head? = some '=') :
    pieceAccess piece = none := by
  cases piece with
  | nil => contradiction
  | cons c piece =>
      cases Option.some.inj marked
      unfold pieceAccess readAccess
      cases scanned : scanLine ('=' :: piece) with
      | none => rfl
      | some fields =>
          obtain ⟨typeChar, virtualAddress, value⟩ := fields
          have isMark : typeChar = '=' := by
            unfold scanLine at scanned
            rw [List.takeWhile_cons_of_pos (by decide)] at scanned
            dsimp only at scanned
            split at scanned
            · contradiction
            · split at scanned
              · contradiction
              · exact (congrArg Prod.fst (Option.some.inj scanned)).symm
          subst isMark
          rfl

theorem linesText_cons : linesText (line :: lines) = line.val ++ '\n' :: linesText lines := by
  simp [linesText]

theorem pieces_short (short : line.val.length < 255) : line.pieces = [line.val ++ ['\n']] := by
  rw [FileLine.pieces, Nat.div_eq_of_lt short]
  simp only [Nat.zero_add, List.range_one, List.map_singleton, Nat.mul_zero, List.drop_zero]
  rw [List.take_of_length_le (by simp; omega)]

def FileLine.tail (line : FileLine) : FileLine :=
  ⟨line.val.drop 255, fun member => line.property (List.mem_of_mem_drop member)⟩

theorem pieces_long (long : 255 ≤ line.val.length) :
    line.pieces = line.val.take 255 :: line.tail.pieces := by
  have more : line.val.length / 255 = line.tail.val.length / 255 + 1 := by
    simp only [FileLine.tail, List.length_drop]
    omega
  rw [FileLine.pieces, more, List.range_succ_eq_map, List.map_cons, List.map_map, FileLine.pieces]
  congr 1
  · rw [Nat.mul_zero, List.drop_zero, List.take_append_of_le_length long]
  · apply List.map_congr_left
    intro index _
    have shifted : (line.val ++ ['\n']).drop (255 * (index + 1)) =
        (line.tail.val ++ ['\n']).drop (255 * index) := by
      rw [Nat.mul_succ, Nat.add_comm, ← List.drop_drop, FileLine.tail,
        List.drop_append_of_le_length long]
    exact congrArg (List.take 255) shifted

theorem takeLine_long {text : List Char} (oneLine : '\n' ∉ text) (rest : List Char) {limit : Nat}
    (long : limit ≤ text.length) :
    takeLine limit (text ++ rest) = (text.take limit, text.drop limit ++ rest, false) := by
  induction text generalizing limit with
  | nil =>
      obtain rfl : limit = 0 := Nat.le_zero.mp long
      rfl
  | cons c text ih =>
      cases limit with
      | zero => rfl
      | succ limit =>
          obtain ⟨apart, oneLine⟩ := not_or.mp (List.mem_cons.not.mp oneLine)
          have taken := ih oneLine (Nat.le_of_succ_le_succ long)
          simp only [List.cons_append, takeLine, if_neg (Ne.symm apart), taken, List.take_succ_cons,
            List.drop_succ_cons]

/-- One call of `fgets` stores one piece. -/
theorem fgets_piece (line : FileLine) (lines : List FileLine) : ∃ piece later,
    fgets 256 ⟨linesText (line :: lines), false⟩ = (some piece, ⟨linesText later, false⟩) ∧
      linePieces (line :: lines) = piece :: linePieces later := by
  rw [linesText_cons]
  rcases Nat.lt_or_ge line.val.length 255 with short | long
  · refine ⟨_, lines, fgets_line line.property short (linesText lines), ?_⟩
    rw [linePieces, List.flatMap_cons, pieces_short short]
    rfl
  · refine ⟨line.val.take 255, line.tail :: lines, ?_, ?_⟩
    · have taken := takeLine_long line.property ('\n' :: linesText lines) long
      have nonempty : line.val.take 255 ≠ [] := by
        intro none'
        have lengths := congrArg List.length none'
        rw [List.length_take, List.length_nil] at lengths
        omega
      rw [fgets_eq, linesText_cons]
      simp only [Nat.add_one_sub_one, taken, if_neg nonempty, Bool.or_self]
      rfl
    · rw [linePieces, List.flatMap_cons, pieces_long long]
      rfl

end Pieces

section Reads
variable {trace : Trace} {lines : List FileLine}

theorem skipComments_pieces {fuel : Nat} (enough : trace.file.rest.length < fuel)
    (file : trace.file = ⟨linesText lines, false⟩) : ∃ after,
      (skipComments fuel).run trace = .ok () after ∧ after.lineNumber = trace.lineNumber ∧
      ((unmarkedPieces lines = [] ∧ after.file = ⟨[], true⟩) ∨
        ∃ later, unmarkedPieces lines = after.buffer :: unmarkedPieces later ∧
          after.file = ⟨linesText later, false⟩) := by
  induction fuel generalizing trace lines with
  | zero => exact absurd enough (Nat.not_lt_zero _)
  | succ fuel ih =>
      cases lines with
      | nil =>
          have ended : fgets 256 trace.file = (none, ⟨[], true⟩) := by rw [file]; rfl
          refine ⟨{ trace with file := ⟨[], true⟩ }, ?_, rfl, .inl ⟨rfl, rfl⟩⟩
          simp only [skipComments, EStateM.run_bind, EStateM.run_get, ended, EStateM.run_set]
      | cons line lines =>
          obtain ⟨piece, later, read, pieces⟩ := fgets_piece line lines
          rw [← file] at read
          have shorter := fgets_shorter read
          by_cases marked : piece.head? = some '='
          · obtain ⟨after, run, number, reached⟩ :=
              @ih { trace with file := ⟨linesText later, false⟩, buffer := piece } later
                (Nat.lt_of_lt_of_le shorter (Nat.le_of_lt_succ enough)) rfl
            have same : unmarkedPieces (line :: lines) = unmarkedPieces later := by
              rw [unmarkedPieces, pieces,
                List.filter_cons_of_neg (by simpa using marked), unmarkedPieces]
            refine ⟨after, ?_, number, by rw [same]; exact reached⟩
            simp only [skipComments, EStateM.run_bind, EStateM.run_get, read, EStateM.run_set,
              if_pos marked, run]
          · refine ⟨{ trace with file := ⟨linesText later, false⟩, buffer := piece }, ?_, rfl,
              .inr ⟨later, ?_, rfl⟩⟩
            · simp only [skipComments, EStateM.run_bind, EStateM.run_get, read, EStateM.run_set,
                if_neg marked, EStateM.run_pure]
            · rw [unmarkedPieces, pieces, List.filter_cons_of_pos (by simpa using marked)]
              rfl

theorem traceRead_piece (before : trace.Before lines) : ∃ result after later,
    traceRead.run trace = .ok result after ∧ after.Before later ∧
      result.toOption = (unmarkedPieces lines).head?.bind pieceAccess ∧
      unmarkedPieces later = (unmarkedPieces lines).tail := by
  rcases before with file | ⟨rfl, file⟩
  · obtain ⟨after, skips, -, reached⟩ := @skipComments_pieces
      { trace with lineNumber := trace.lineNumber + 1 } lines _ (Nat.lt_succ_self _) file
    have start : traceRead.run trace =
        (if after.file.eof then pure (.error .endOfFile) else pure (readAccess after) :
          Exec Trace (Except TraceError MemAccess)).run after := by
      simp only [traceRead, EStateM.run_bind, EStateM.run_modify, EStateM.run_get, skips]
    rcases reached with ⟨none', ended⟩ | ⟨later, pieces, file'⟩
    · refine ⟨.error .endOfFile, after, [], ?_, .inr ⟨rfl, ended⟩, ?_, ?_⟩
      · rw [start, ended]
        rfl
      · rw [none']
        rfl
      · rw [none']
        rfl
    · refine ⟨readAccess after, after, later, ?_, .inl file', ?_, ?_⟩
      · rw [start, file']
        rfl
      · rw [pieceAccess_eq, pieces]
        rfl
      · rw [pieces]
        rfl
  · have ended : fgets 256 trace.file = (none, ⟨[], true⟩) := by rw [file]; rfl
    refine ⟨.error .endOfFile,
      { trace with lineNumber := trace.lineNumber + 1, file := ⟨[], true⟩ }, [], ?_,
      .inr ⟨rfl, rfl⟩, rfl, rfl⟩
    simp only [traceRead, skipComments, EStateM.run_bind, EStateM.run_modify, EStateM.run_get,
      ended, EStateM.run_set, if_true, EStateM.run_pure]

theorem traceReads_pieces (calls : Nat) (before : trace.Before lines) : ∃ results after,
    (traceReads calls).run trace = .ok results after ∧ results.map Except.toOption =
      (List.range calls).map fun index => (unmarkedPieces lines)[index]?.bind pieceAccess := by
  induction calls generalizing trace lines with
  | zero => exact ⟨[], trace, rfl, rfl⟩
  | succ calls ih =>
      obtain ⟨result, middle, later, read, beforeLater, first, rest⟩ := traceRead_piece before
      obtain ⟨results, after, run, returned⟩ := ih beforeLater
      refine ⟨result :: results, after, ?_, ?_⟩
      · simp only [traceReads, EStateM.run_bind, read, run, EStateM.run_pure]
      · rw [List.map_cons, returned, first, rest, List.range_succ_eq_map, List.map_cons,
          List.map_map, List.head?_eq_getElem?]
        congr 1
        apply List.map_congr_left
        intro index _
        rw [List.getElem?_tail]
        rfl

theorem sameReturns_iff (first second : List FileLine) :
    SameReturns (linesText first) (linesText second) ↔
      ∀ index : Nat, (unmarkedPieces first)[index]?.bind pieceAccess =
        (unmarkedPieces second)[index]?.bind pieceAccess := by
  have calls : ∀ (lines : List FileLine) (calls : Nat), ∃ results after,
      (traceReads calls).run (traceCreate (linesText lines)) = .ok results after ∧
        results.map Except.toOption = (List.range calls).map
          fun index => (unmarkedPieces lines)[index]?.bind pieceAccess :=
    fun lines calls => traceReads_pieces calls (.inl rfl)
  constructor
  · intro same index
    obtain ⟨results, after, results', after', run, run', equal⟩ := same (index + 1)
    obtain ⟨found, last, runs, returned⟩ := calls first (index + 1)
    obtain ⟨found', last', runs', returned'⟩ := calls second (index + 1)
    cases run.symm.trans runs
    cases run'.symm.trans runs'
    rw [returned, returned'] at equal
    exact List.map_inj_left.mp equal index (List.mem_range.mpr (Nat.lt_succ_self index))
  · intro equal count
    obtain ⟨results, after, run, returned⟩ := calls first count
    obtain ⟨results', after', run', returned'⟩ := calls second count
    refine ⟨results, after, results', after', run, run', ?_⟩
    rw [returned, returned']
    exact List.map_congr_left fun index _ => equal index

end Reads

/-! ## Inserting into a sequence -/

section Insert
variable {α β : Type} {value : α → Option β}

/-- Inserting items changes no value, read from the front on, if and only if there
are none, or there is no value from there on. -/
theorem insert_values_iff (front inserted back : List α) :
    (∀ index : Nat, (front ++ back)[index]?.bind value =
        (front ++ (inserted ++ back))[index]?.bind value) ↔
      inserted = [] ∨ ∀ item ∈ inserted ++ back, value item = none := by
  have values : ∀ (items : List α), (∀ item ∈ items, value item = none) ↔
      ∀ index : Nat, items[index]?.bind value = none := by
    intro items
    constructor
    · intro none' index
      cases found : items[index]? with
      | none => rfl
      | some item => exact none' item (List.mem_of_getElem? found)
    · intro none' item member
      obtain ⟨index, found⟩ := List.mem_iff_getElem?.mp member
      have here := none' index
      rwa [found] at here
  have behind : ∀ (items : List α) (index : Nat),
      (front ++ items)[front.length + index]? = items[index]? := by
    intro items index
    rw [List.getElem?_append_right (Nat.le_add_right _ _), Nat.add_sub_cancel_left]
  constructor
  · intro same
    apply Classical.or_iff_not_imp_left.mpr
    intro some'
    have shift : ∀ index : Nat, back[index]?.bind value = (inserted ++ back)[index]?.bind value := by
      intro index
      rw [← behind back, ← behind (inserted ++ back)]
      exact same _
    -- what comes next in `back` comes again, later by the length of what is inserted
    have again : ∀ index : Nat,
        back[index + inserted.length]?.bind value = back[index]?.bind value := by
      intro index
      rw [shift (index + inserted.length), List.getElem?_append_right (Nat.le_add_left _ _),
        Nat.add_sub_cancel]
    have repeated : ∀ count index : Nat,
        back[index + count * inserted.length]?.bind value = back[index]?.bind value := by
      intro count index
      induction count with
      | zero => rw [Nat.zero_mul, Nat.add_zero]
      | succ count ih => rw [Nat.succ_mul, ← Nat.add_assoc, again, ih]
    rw [values]
    intro index
    rw [← shift index, ← repeated back.length index, List.getElem?_eq_none]
    · rfl
    · have positive := List.length_pos_of_ne_nil some'
      have enough := Nat.le_mul_of_pos_right back.length positive
      omega
  · intro either
    rcases either with rfl | none'
    · intro index
      rfl
    · intro index
      rcases Nat.lt_or_ge index front.length with inFront | later
      · rw [List.getElem?_append_left inFront, List.getElem?_append_left inFront]
      · obtain ⟨offset, rfl⟩ := Nat.exists_eq_add_of_le later
        have noBack : ∀ item ∈ back, value item = none :=
          fun item member => none' item (List.mem_append_right _ member)
        rw [behind, behind, (values back).mp noBack, (values _).mp none']

end Insert

theorem unmarkedPieces_append (first second : List FileLine) :
    unmarkedPieces (first ++ second) = unmarkedPieces first ++ unmarkedPieces second := by
  simp only [unmarkedPieces, linePieces, List.flatMap_append, List.filter_append]

/-- A comment line between any two lines changes nothing if and only if all its
pieces are marked, or neither it nor any line after it holds an access. -/
theorem comment_transparent_iff (before after : List FileLine) (line : FileLine) :
    SameReturns (linesText (before ++ after)) (linesText (before ++ line.comment :: after)) ↔
      (∀ piece ∈ line.comment.pieces, piece.head? = some '=') ∨
        ∀ piece ∈ line.comment.pieces ++ linePieces after, pieceAccess piece = none := by
  have inserted : unmarkedPieces (before ++ line.comment :: after) =
      unmarkedPieces before ++ (unmarkedPieces [line.comment] ++ unmarkedPieces after) := by
    rw [unmarkedPieces_append, ← List.singleton_append, unmarkedPieces_append]
  have single : linePieces [line.comment] = line.comment.pieces := List.append_nil _
  rw [sameReturns_iff, unmarkedPieces_append, inserted, insert_values_iff]
  apply or_congr
  · rw [unmarkedPieces, single, List.filter_eq_nil_iff]
    simp only [ne_eq, decide_not, Bool.not_eq_true', decide_eq_false_iff_not, not_not]
  · rw [← unmarkedPieces_append, List.singleton_append, unmarkedPieces]
    constructor
    · intro none' piece member
      by_cases marked : piece.head? = some '='
      · exact pieceAccess_marked marked
      · exact none' piece (List.mem_filter.mpr ⟨member, by simpa using marked⟩)
    · intro none' piece member
      exact none' piece (List.mem_of_mem_filter member)

/-! ## A comment line of 260 characters -/

/-- The line `L 0 0`. -/
def loadFirst : FileLine := ⟨['L', ' ', '0', ' ', '0'], by decide⟩

/-- With its mark, a comment of 255 characters and then `L 0 0`. -/
def longComment : FileLine := ⟨List.replicate 254 '-' ++ loadFirst.val, by decide⟩

/-- The end of the comment is read as an access. -/
theorem longComment_changes_accesses : ¬ SameReturns (linesText ([loadFirst] ++ [loadFirst]))
    (linesText ([loadFirst] ++ longComment.comment :: [loadFirst])) := by
  rw [comment_transparent_iff]
  intro either
  rcases either with marked | none'
  · exact absurd (marked (loadFirst.val ++ ['\n']) (by decide +kernel)) (by decide)
  · exact absurd (none' (loadFirst.val ++ ['\n']) (by decide +kernel)) (by decide +kernel)

end MemSim
