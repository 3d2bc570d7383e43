import Tickscope.Gateway.MetadataCsv
import Tickscope.Lib.Lists

/-!
# Which rows survive the CSV

`fgets` cuts a line that is longer than the buffer, and every piece is parsed as a line of its
own. The first piece gives the row back only if what is cut off reads as zero anyway (`Fits`). A
later piece never does (`not_stored_of_later`): it is shorter than the line by the length of the
buffer, and a shorter text for the same row could only save the quotes of the question. So the
table that is read is the one that was written exactly if every row fits (`rowsRead_iff`).
-/

namespace Tickscope.Gateway

open Tickscope.Lib

/-- A row as the program has it: writable texts and a fee that an `int` holds. -/
structure Writable (m : TokenMeta) : Prop extends TextOk m where
  fee : -2 ^ 31 ≤ m.takerFeeBps ∧ m.takerFeeBps < 2 ^ 31

instance (m : TokenMeta) : Decidable (Writable m) :=
  decidable_of_iff
    ((FieldOk m.tokenId ∧ FieldOk m.conditionId ∧ FieldOk m.outcome ∧ FieldOk m.endDate ∧
      0 ∉ m.question) ∧ -2 ^ 31 ≤ m.takerFeeBps ∧ m.takerFeeBps < 2 ^ 31)
    ⟨fun ⟨⟨h₁, h₂, h₃, h₄, h₅⟩, fee⟩ => ⟨⟨h₁, h₂, h₃, h₄, h₅⟩, fee⟩,
      fun ⟨⟨h₁, h₂, h₃, h₄, h₅⟩, fee⟩ => ⟨⟨h₁, h₂, h₃, h₄, h₅⟩, fee⟩⟩

/-- The line fits into the buffer but for its newline, or the buffer ends among a closing `0`, its
comma and a flag that is `0`, which read as zero when they are cut off. -/
def Fits (m : TokenMeta) : Prop :=
  (csvLine m).length < lineBuffer ∨
    m.takerFeeBps = 0 ∧ ((csvLine m).length ≤ lineBuffer + 1 ∨
      m.active = false ∧ (csvLine m).length = lineBuffer + 2)

instance (m : TokenMeta) : Decidable (Fits m) :=
  inferInstanceAs (Decidable (_ ∨ _ ∧ (_ ∨ _ ∧ _)))

/-- What is read for one row of the file. -/
def rowsRead (m : TokenMeta) : List TokenMeta := (fgetsAll lineBuffer (csvRow m)).filterMap parseLine

theorem readCsvTokens_encode_eq (rows : List TokenMeta) :
    readCsvTokens (some (encodeCsv rows)) = rows.flatMap rowsRead := by
  have reads : fgetsAll lineBuffer (rows.flatMap csvRow) =
      rows.flatMap fun m => fgetsAll lineBuffer (csvRow m) := by
    induction rows with
    | nil => rfl
    | cons m rows ih =>
        rw [List.flatMap_cons, List.flatMap_cons, ← ih, csvRow, List.append_assoc,
          List.singleton_append, fgetsAll_append]
  rw [readCsvTokens, encodeCsv, fgetsAll_line (by decide) (by decide), List.drop_one,
    List.tail_cons, reads, List.filterMap_flatMap]
  rfl

/-! ## The parts of a line -/

theorem length_escapeBody (s : Str) : (escapeBody s).length = s.length + s.count 34 := by
  induction s with
  | nil => rfl
  | cons c s ih =>
      rw [escapeBody, List.length_cons, List.count_cons]
      split
      · rename_i control
        have other : (c == 34) = false := by
          rcases control with rfl | rfl <;> rfl
        rw [other, List.length_cons, ih]
        simp only [Bool.false_eq_true, if_false]
        omega
      · split
        · rename_i quote
          rw [quote, List.length_cons, List.length_cons, ih]
          simp only [BEq.rfl, if_true]
          omega
        · rename_i noQuote
          have other : (c == 34) = false := beq_false_of_ne noQuote
          rw [other, List.length_cons, ih]
          simp only [Bool.false_eq_true, if_false]
          omega

theorem length_csvEscapeQuestion (s : Str) :
    (csvEscapeQuestion s).length = s.length + s.count 34 + 2 := by
  rw [csvEscapeQuestion, List.length_append, List.length_cons, length_escapeBody]
  rfl

theorem count_stored (m : TokenMeta) : m.stored.question.count 34 = m.question.count 34 := by
  show (m.question.map _).count 34 = _
  induction m.question with
  | nil => rfl
  | cons c s ih =>
      rw [List.map_cons, List.count_cons, List.count_cons, ih]
      split
      · rename_i control
        rcases control with rfl | rfl <;> rfl
      · rfl

/-- The characters of the texts, with the doubled quotes. -/
def TokenMeta.width (m : TokenMeta) : Nat :=
  m.tokenId.length + m.conditionId.length + m.outcome.length +
    (m.question.length + m.question.count 34) + m.endDate.length

theorem width_stored (m : TokenMeta) : m.stored.width = m.width := by
  rw [TokenMeta.width, count_stored]
  show _ + ((m.question.map _).length + _) + _ = _
  rw [List.length_map]
  rfl

/-- The part of a line up to the comma before the flag. -/
def csvTexts (m : TokenMeta) : Str :=
  m.tokenId ++ 44 :: (m.conditionId ++ 44 :: (m.outcome ++ 44 ::
    (csvEscapeQuestion m.question ++ 44 :: (m.endDate ++ [44]))))

/-- The flag and the fee. -/
def csvNumbers (m : TokenMeta) : Str :=
  (if m.active then ascii "1" else ascii "0") ++ 44 :: signedDecimal m.takerFeeBps

theorem csvTexts_append (m : TokenMeta) (p : Str) :
    csvTexts m ++ p = m.tokenId ++ 44 :: (m.conditionId ++ 44 :: (m.outcome ++ 44 ::
      (csvEscapeQuestion m.question ++ 44 :: (m.endDate ++ 44 :: p)))) := by
  simp only [csvTexts, List.append_assoc, List.cons_append, List.nil_append]

theorem length_csvTexts (m : TokenMeta) : (csvTexts m).length = m.width + 7 := by
  simp only [csvTexts, List.length_append, List.length_cons, List.length_nil,
    length_csvEscapeQuestion, TokenMeta.width]
  omega

theorem length_csvNumbers (m : TokenMeta) :
    (csvNumbers m).length = (signedDecimal m.takerFeeBps).length + 2 := by
  have flag : (if m.active then ascii "1" else ascii "0").length = 1 := by
    split <;> rfl
  rw [csvNumbers, List.length_append, List.length_cons, flag]
  omega

theorem TextOk.csvLine_split {m : TokenMeta} (ok : TextOk m) :
    csvLine m = csvTexts m ++ csvNumbers m := by
  rw [ok.csvLine_eq, csvTexts_append]
  rfl

theorem TextOk.length_csvLine {m : TokenMeta} (ok : TextOk m) :
    (csvLine m).length = m.width + (signedDecimal m.takerFeeBps).length + 9 := by
  rw [ok.csvLine_split, List.length_append, length_csvTexts, length_csvNumbers]
  omega

/-! ## What a piece must have in it -/

theorem eq_of_cut {c : UInt8} {p field rest : Str} (found : cut c p = some (field, rest)) :
    p = field ++ c :: rest ∧ c ∉ field := by
  induction p generalizing field with
  | nil => cases found
  | cons b p ih =>
      rw [cut] at found
      split at found
      · rename_i same
        cases found
        exact ⟨by rw [same]; rfl, List.not_mem_nil⟩
      · rename_i other
        rcases Option.map_eq_some_iff.mp found with ⟨⟨field', rest'⟩, later, eq⟩
        cases eq
        rcases ih later with ⟨eq, absent⟩
        refine ⟨by rw [eq]; rfl, fun mem => ?_⟩
        rcases List.mem_cons.mp mem with same | mem
        · exact other same.symm
        · exact absent mem

/-- A quoted field takes its characters, once more its quotes, and the closing quote. -/
theorem length_scanQuoted (p : Str) :
    (scanQuoted p).2 = [] ∨
      (scanQuoted p).1.length + (scanQuoted p).1.count 34 + (scanQuoted p).2.length < p.length := by
  fun_induction scanQuoted p with
  | case1 => exact .inl rfl
  | case2 s question rest eq ih =>
      rw [eq] at ih
      refine ih.imp_right fun short => ?_
      simp only [List.length_cons, List.count_cons_self] at short ⊢
      omega
  | case3 s => exact .inr (by simp)
  | case4 c s _ noQuote question rest eq ih =>
      rw [eq] at ih
      refine ih.imp_right fun short => ?_
      rw [List.count_cons_of_ne noQuote]
      simp only [List.length_cons] at short ⊢
      omega

/-- Before a row is read from a text, the text has its fields in it: the quotes of the question
doubled, or no comma in the question and five commas in all. -/
theorem room_of_parseFields {c : Str} {m : TokenMeta} (parsed : parseFields c = some m) :
    m.width + 6 ≤ c.length ∨
      m.width + 5 ≤ c.length + m.question.count 34 ∧ 44 ∉ m.question ∧ 5 ≤ c.count 44 := by
  unfold parseFields at parsed
  rcases Option.bind_eq_some_iff.mp parsed with ⟨⟨tokenId, p₁⟩, found₁, parsed⟩
  rcases Option.bind_eq_some_iff.mp parsed with ⟨⟨conditionId, p₂⟩, found₂, parsed⟩
  rcases Option.bind_eq_some_iff.mp parsed with ⟨⟨outcome, p₃⟩, found₃, parsed⟩
  rcases Option.bind_eq_some_iff.mp parsed with ⟨⟨question, p₄⟩, found₄, parsed⟩
  rcases Option.map_eq_some_iff.mp parsed with ⟨⟨endDate, p₅⟩, found₅, rfl⟩
  rw [(eq_of_cut found₁).1, (eq_of_cut found₂).1, (eq_of_cut found₃).1]
  have last := (eq_of_cut found₅).1
  unfold TokenMeta.width
  simp only [List.length_append, List.length_cons, List.count_append, List.count_cons_self]
  unfold parseQuestion at found₄
  split at found₄
  · -- a quoted question
    rename_i p
    left
    have short := length_scanQuoted p
    dsimp only at found₄
    split at found₄
    · rename_i rest after
      cases found₄
      rw [after, last] at short
      rw [List.length_cons]
      simp only [List.cons_ne_nil, false_or, List.length_append, List.length_cons] at short
      omega
    · rename_i after
      cases found₄
      rw [last] at short
      rw [List.length_cons]
      simp only [List.append_eq_nil_iff, List.cons_ne_nil, and_false, false_or,
        List.length_append, List.length_cons] at short
      omega
  · right
    rcases eq_of_cut found₄ with ⟨eq, noComma⟩
    rw [eq, last]
    simp only [List.length_append, List.length_cons, List.count_append, List.count_cons_self]
    exact ⟨by omega, noComma, by omega⟩

/-! ## A later piece -/

theorem count_of_not_mem {s : Str} (absent : 44 ∉ s) : s.count 44 = 0 :=
  List.count_eq_zero.mpr absent

theorem comma_not_mem_csvEscapeQuestion {s : Str} (absent : 44 ∉ s) :
    44 ∉ csvEscapeQuestion s := by
  intro mem
  rcases List.mem_append.mp mem with mem | mem
  · rcases List.mem_cons.mp mem with same | mem
    · cases same
    · rcases mem_escapeBody mem with same | ⟨mem, -⟩
      · cases same
      · exact absent mem
  · cases List.mem_singleton.mp mem

theorem comma_not_mem_flag (active : Bool) :
    44 ∉ (if active then ascii "1" else ascii "0") := by
  cases active <;> decide

theorem comma_not_mem_signedDecimal (n : Int) : 44 ∉ signedDecimal n := fun mem =>
  (mem_signedDecimal mem).elim nofun nofun

/-- A piece with five of the six commas of a line has the quoted question in it. -/
theorem question_in_piece {m : TokenMeta} (ok : TextOk m) (noComma : 44 ∉ m.question)
    {before piece after : Str} (line : csvLine m = before ++ piece ++ after)
    (commas : 5 ≤ piece.count 44) : (csvEscapeQuestion m.question).length ≤ piece.length := by
  let front : Str := m.tokenId ++ 44 :: (m.conditionId ++ 44 :: (m.outcome ++ [44]))
  let back : Str := 44 :: (m.endDate ++ 44 :: csvNumbers m)
  have parts : csvLine m = front ++ csvEscapeQuestion m.question ++ back := by
    rw [ok.csvLine_eq]
    simp [front, back, csvNumbers]
  have frontCommas : front.count 44 = 3 := by
    simp [front, count_of_not_mem ok.tokenId.noComma, count_of_not_mem ok.conditionId.noComma,
      count_of_not_mem ok.outcome.noComma]
  have backCommas : back.count 44 = 3 := by
    simp [back, csvNumbers, count_of_not_mem ok.endDate.noComma,
      count_of_not_mem (comma_not_mem_flag m.active),
      count_of_not_mem (comma_not_mem_signedDecimal m.takerFeeBps)]
  have questionCommas := count_of_not_mem (comma_not_mem_csvEscapeQuestion noComma)
  have total := congrArg (List.count 44) (line.symm.trans parts)
  have length := congrArg List.length (line.symm.trans parts)
  simp only [List.count_append, List.length_append] at total length
  have shortBefore : before.length < front.length := by
    by_contra long
    have ofFront : front <+: csvLine m := by
      rw [parts, List.append_assoc]
      exact List.prefix_append _ _
    have ofBefore : before <+: csvLine m := by
      rw [line, List.append_assoc]
      exact List.prefix_append _ _
    have inFront := List.prefix_of_prefix_length_le ofFront ofBefore (by omega)
    have := inFront.sublist.count_le 44
    omega
  have shortAfter : after.length < back.length := by
    by_contra long
    have ofBack : back <:+ csvLine m := by
      rw [parts]
      exact List.suffix_append _ _
    have ofAfter : after <:+ csvLine m := by
      rw [line]
      exact List.suffix_append _ _
    have suffix := List.suffix_of_suffix_length_le ofBack ofAfter (by omega)
    have := suffix.sublist.count_le 44
    omega
  omega

/-- **A later piece.** What comes after the buffer has been filled once is not read as the row. -/
theorem not_stored_of_later {m : TokenMeta} (ok : Writable m) {before piece after : Str}
    (line : csvLine m = before ++ piece ++ after) (later : lineBuffer - 1 ≤ before.length)
    (short : piece.length < lineBuffer) : parseFields piece ≠ some m.stored := by
  intro parsed
  have fee := length_signedDecimal_le ok.fee
  have whole := ok.toTextOk.length_csvLine
  have length := congrArg List.length line
  simp only [List.length_append] at length
  have room := room_of_parseFields parsed
  rw [width_stored, count_stored] at room
  have buffer : lineBuffer = 2048 := rfl
  rcases room with room | ⟨room, noComma, commas⟩
  · omega
  · have noComma' : 44 ∉ m.question := fun mem => noComma (List.mem_map.mpr ⟨44, mem, rfl⟩)
    have question := question_in_piece ok.toTextOk noComma' line commas
    rw [length_csvEscapeQuestion] at question
    have quotes : m.question.count 34 ≤ m.question.length := List.count_le_length
    omega

/-! ## The first piece -/

theorem cut_eq_none {c : UInt8} {p : Str} (absent : c ∉ p) : cut c p = none := by
  cases found : cut c p with
  | none => rfl
  | some halves =>
      rw [(eq_of_cut found).1] at absent
      exact (absent (List.mem_append_right _ List.mem_cons_self)).elim

/-- A text that breaks off has the field with its comma, or no comma. -/
theorem cut_of_prefix {field rest p : Str} (noComma : 44 ∉ field)
    (broken : p <+: field ++ 44 :: rest) :
    cut 44 p = none ∨ ∃ p', cut 44 p = some (field, p') ∧ p' <+: rest := by
  by_cases short : p.length ≤ field.length
  · have inside : p <+: field :=
      List.prefix_of_prefix_length_le broken (List.prefix_append _ _) short
    exact .inl (cut_eq_none fun mem => noComma (inside.subset mem))
  · have whole : field <+: p :=
      List.prefix_of_prefix_length_le (List.prefix_append _ _) broken (by omega)
    rcases whole with ⟨p', rfl⟩
    have after := (List.prefix_append_right_inj field).mp broken
    cases p' with
    | nil =>
        rw [List.append_nil] at short
        exact (short le_rfl).elim
    | cons b p' =>
        rcases List.cons_prefix_cons.mp after with ⟨rfl, later⟩
        exact .inr ⟨p', cut_append noComma p', later⟩

/-- After a quoted field that breaks off there is nothing, or what follows the field. -/
theorem scanQuoted_of_prefix {s rest p : Str} (broken : p <+: escapeBody s ++ 34 :: 44 :: rest) :
    (scanQuoted p).2 <+: 44 :: rest := by
  induction s generalizing p with
  | nil =>
      rw [escapeBody, List.nil_append] at broken
      rcases p with _ | ⟨b, _ | ⟨b', p⟩⟩
      · exact List.nil_prefix
      · rw [(List.cons_prefix_cons.mp broken).1]
        exact List.nil_prefix
      · rcases List.cons_prefix_cons.mp broken with ⟨rfl, after⟩
        rcases List.cons_prefix_cons.mp after with ⟨rfl, -⟩
        exact after
  | cons c s ih =>
      have plain : ∀ {b : UInt8}, b ≠ 34 → p <+: b :: (escapeBody s ++ 34 :: 44 :: rest) →
          (scanQuoted p).2 <+: 44 :: rest := by
        intro b noQuote broken
        cases p with
        | nil => exact List.nil_prefix
        | cons b' p =>
            rcases List.cons_prefix_cons.mp broken with ⟨rfl, after⟩
            rw [scanQuoted]
            · exact ih after
            · exact fun _ same => (noQuote same).elim
            · exact noQuote
      rw [escapeBody] at broken
      split at broken
      · exact plain (by decide) broken
      · split at broken
        · rcases p with _ | ⟨b, _ | ⟨b', p⟩⟩
          · exact List.nil_prefix
          · rw [(List.cons_prefix_cons.mp broken).1]
            exact List.nil_prefix
          · rcases List.cons_prefix_cons.mp broken with ⟨rfl, second⟩
            rcases List.cons_prefix_cons.mp second with ⟨rfl, after⟩
            show (scanQuoted p).2 <+: 44 :: rest
            exact ih after
        · rename_i noQuote
          exact plain noQuote broken

/-- A line that breaks off before the comma after the end date is not read. -/
theorem TextOk.parseFields_broken {m : TokenMeta} (ok : TextOk m) {p : Str}
    (broken : p <+: csvTexts m) (short : p.length < (csvTexts m).length) :
    parseFields p = none := by
  let ends : Str := m.tokenId ++ 44 :: (m.conditionId ++ 44 :: (m.outcome ++ 44 ::
    (csvEscapeQuestion m.question ++ 44 :: m.endDate)))
  have texts : csvTexts m = ends ++ [44] := by
    simp [csvTexts, ends]
  rw [texts, List.length_append, List.length_singleton] at short
  have broken : p <+: ends :=
    List.prefix_of_prefix_length_le (texts ▸ broken) (List.prefix_append _ _) (by omega)
  unfold parseFields
  rcases cut_of_prefix ok.tokenId.noComma broken with none | ⟨p₁, found, broken₁⟩
  · rw [none, Option.bind_none]
  rw [found, Option.bind_some]
  dsimp only
  rcases cut_of_prefix ok.conditionId.noComma broken₁ with none | ⟨p₂, found, broken₂⟩
  · rw [none, Option.bind_none]
  rw [found, Option.bind_some]
  dsimp only
  rcases cut_of_prefix ok.outcome.noComma broken₂ with none | ⟨p₃, found, broken₃⟩
  · rw [none, Option.bind_none]
  rw [found, Option.bind_some]
  dsimp only
  have noComma : ∀ {r : Str}, r <+: m.endDate → cut 44 r = none := fun inside =>
    cut_eq_none fun mem => ok.endDate.noComma (inside.subset mem)
  cases p₃ with
  | nil => rfl
  | cons b p₃ =>
      rw [csvEscapeQuestion, List.cons_append, List.cons_append, List.append_assoc,
        List.singleton_append] at broken₃
      rcases List.cons_prefix_cons.mp broken₃ with ⟨rfl, quoted⟩
      have rest := scanQuoted_of_prefix quoted
      rw [parseQuestion]
      dsimp only
      split
      · rename_i after
        rw [after] at rest
        rw [Option.bind_some, noComma (List.cons_prefix_cons.mp rest).2, Option.map_none]
      · rename_i other
        rw [Option.bind_some]
        cases after : (scanQuoted p₃).2 with
        | nil => rfl
        | cons b r =>
            rw [after] at rest
            exact (other r (after.trans (by rw [(List.cons_prefix_cons.mp rest).1]))).elim

/-- Of a row that does not fit, the first piece is not read as the row. -/
theorem not_stored_of_first {m : TokenMeta} (ok : Writable m) (unfit : ¬ Fits m) :
    parseFields ((csvLine m).take (lineBuffer - 1)) ≠ some m.stored := by
  have long : lineBuffer ≤ (csvLine m).length := Nat.not_lt.mp fun short => unfit (.inl short)
  have length := ok.toTextOk.length_csvLine
  have texts := length_csvTexts m
  by_cases broken : lineBuffer - 1 < (csvTexts m).length
  · rw [ok.toTextOk.csvLine_split, List.take_append_of_le_length broken.le]
    rw [ok.toTextOk.parseFields_broken (List.take_prefix _ _)
      (by rw [List.length_take]; omega)]
    exact Option.some_ne_none _ ∘ Eq.symm
  · -- the texts are read, so it is the flag or the fee that goes wrong
    intro stored
    obtain ⟨d, room⟩ : ∃ d, lineBuffer - 1 = (csvTexts m).length + d :=
      Nat.exists_eq_add_of_le (Nat.not_lt.mp broken)
    rw [ok.toTextOk.csvLine_split, room, List.take_length_add_append, csvTexts_append,
      ok.toTextOk.parseFields_head, Option.some_inj, TokenMeta.mk.injEq] at stored
    rcases stored with ⟨-, -, -, -, -, active, fee⟩
    have active : decide (((csvNumbers m).take d).head? = some 49) = m.active := active
    have fee : atoi ((((csvNumbers m).take d).dropWhile (· ≠ 44)).drop 1) = m.takerFeeBps := fee
    have buffer : lineBuffer = 2048 := rfl
    unfold Fits at unfit
    obtain ⟨flag, flagEq, flagNe⟩ : ∃ flag : UInt8,
        (if m.active then ascii "1" else ascii "0") = [flag] ∧ flag ≠ 44 := by
      cases m.active
      · exact ⟨48, rfl, by decide⟩
      · exact ⟨49, rfl, by decide⟩
    rw [csvNumbers, flagEq, List.singleton_append] at active fee
    have zero : m.takerFeeBps = 0 → (signedDecimal m.takerFeeBps).length = 1 := fun zero => by
      rw [zero]
      rfl
    rcases d with _ | _ | d
    · have feeZero : m.takerFeeBps = 0 := fee.symm
      have inactive : m.active = false := active.symm
      have := zero feeZero
      exact unfit (.inr ⟨feeZero, .inr ⟨inactive, by omega⟩⟩)
    · have feeZero : m.takerFeeBps = 0 := by
        rw [← fee, List.take_succ_cons, List.take_zero, List.dropWhile_cons_of_pos (by simpa)]
        rfl
      have := zero feeZero
      exact unfit (.inr ⟨feeZero, .inl (by omega)⟩)
    · rw [List.take_succ_cons, List.take_succ_cons, List.dropWhile_cons_of_pos (by simpa),
        List.dropWhile_cons_of_neg (by decide), List.drop_one, List.tail_cons] at fee
      by_cases feeZero : m.takerFeeBps = 0
      · have := zero feeZero
        exact unfit (.inr ⟨feeZero, .inl (by omega)⟩)
      · refine atoi_cut (List.take_append_drop d _).symm ?_ feeZero fee
        intro nothing
        have := List.drop_eq_nil_iff.mp nothing
        omega

/-! ## All pieces -/

theorem TextOk.clean {m : TokenMeta} (ok : TextOk m) {piece : Str} (inside : piece ⊆ csvLine m) :
    0 ∉ piece ∧ 10 ∉ piece ∧ 13 ∉ piece :=
  ⟨fun mem => ok.not_mem_csvLine (.inl rfl) (inside mem),
    fun mem => ok.not_mem_csvLine (.inr (.inl rfl)) (inside mem),
    fun mem => ok.not_mem_csvLine (.inr (.inr rfl)) (inside mem)⟩

/-- The reads of a line that fills the buffer: its first part, and later pieces. -/
theorem rowsRead_of_long {m : TokenMeta} (ok : TextOk m)
    (long : lineBuffer ≤ (csvLine m).length + 1) :
    ∃ later : List Str, rowsRead m =
        (parseFields ((csvLine m).take (lineBuffer - 1))).toList ++ later.filterMap parseLine ∧
      ∀ read ∈ later, ∃ before piece after, csvLine m = before ++ piece ++ after ∧
        lineBuffer - 1 ≤ before.length ∧ piece.length < lineBuffer ∧
        parseLine read = parseFields piece := by
  have oneLine : 10 ∉ csvLine m := ok.not_mem_csvLine (.inr (.inl rfl))
  refine ⟨fgetsAll lineBuffer ((csvLine m).drop (lineBuffer - 1) ++ [10]), ?_, ?_⟩
  · rw [rowsRead, csvRow, fgetsAll_full (by decide) oneLine long]
    have first := (parseLine_clean (ok.clean (List.take_subset (lineBuffer - 1) _))).1
    rw [List.filterMap_cons, first]
    cases parseFields ((csvLine m).take (lineBuffer - 1)) <;> rfl
  · intro read mem
    rcases pieces_of_fgetsAll (by decide) (fun mem => oneLine (List.mem_of_mem_drop mem)) mem with
      ⟨before, piece, after, eq, small, same⟩
    have line : csvLine m =
        ((csvLine m).take (lineBuffer - 1) ++ before) ++ piece ++ after := by
      rw [List.append_assoc, List.append_assoc, ← List.append_assoc before, ← eq,
        List.take_append_drop]
    have inside : piece ⊆ csvLine m := by
      rw [line]
      exact List.Subset.trans (List.subset_append_right _ _) (List.subset_append_left _ _)
    refine ⟨_, piece, after, line, ?_, small, ?_⟩
    · rw [List.length_append, List.length_take]
      omega
    · rcases same with rfl | rfl
      · exact (parseLine_clean (ok.clean inside)).1
      · exact (parseLine_clean (ok.clean inside)).2

/-- Of a row that fits, the first piece is read as the row. -/
theorem stored_of_first {m : TokenMeta} (ok : TextOk m) (fits : Fits m)
    (long : lineBuffer ≤ (csvLine m).length + 1) :
    parseFields ((csvLine m).take (lineBuffer - 1)) = some m.stored := by
  have buffer : lineBuffer = 2048 := rfl
  by_cases whole : (csvLine m).length < lineBuffer
  · rw [List.take_of_length_le (by omega), ok.parseFields_csvLine]
  · rcases fits.resolve_left whole with ⟨feeZero, cut⟩
    have numbers : csvNumbers m = (if m.active then ascii "1" else ascii "0") ++ [44, 48] := by
      rw [csvNumbers, feeZero]
      rfl
    have length := congrArg List.length ok.csvLine_split
    rw [List.length_append, length_csvNumbers, feeZero] at length
    have single : (signedDecimal 0).length = 1 := rfl
    obtain ⟨d, room⟩ : ∃ d, lineBuffer - 1 = (csvTexts m).length + d :=
      Nat.exists_eq_add_of_le (by omega)
    have few : d ≤ 2 := by omega
    rw [ok.csvLine_split, room, List.take_length_add_append, csvTexts_append, ok.parseFields_head,
      numbers]
    rcases m with ⟨tokenId, conditionId, outcome, question, endDate, active, takerFeeBps⟩
    have feeZero : takerFeeBps = 0 := feeZero
    have cut : _ ∨ active = false ∧ _ := cut
    refine congrArg some ?_
    rw [TokenMeta.stored, TokenMeta.mk.injEq, feeZero]
    refine ⟨rfl, rfl, rfl, rfl, rfl, ?_⟩
    interval_cases d
    · have inactive := (cut.resolve_left (by omega)).1
      rw [inactive]
      exact ⟨rfl, rfl⟩
    all_goals cases active <;> exact ⟨rfl, rfl⟩

theorem rowsRead_of_fits {m : TokenMeta} (ok : TextOk m) (fits : Fits m) :
    rowsRead m = [m.stored] := by
  by_cases long : lineBuffer ≤ (csvLine m).length + 1
  · rcases rowsRead_of_long ok long with ⟨later, reads, pieces⟩
    rw [reads, stored_of_first ok fits long]
    refine congrArg (m.stored :: ·) (List.filterMap_eq_nil_iff.mpr fun read mem => ?_)
    rcases pieces read mem with ⟨before, piece, after, line, past, -, parsed⟩
    rw [parsed]
    -- at most three characters are left
    cases found : parseFields piece with
    | none => rfl
    | some row =>
        exfalso
        have length := congrArg List.length line
        simp only [List.length_append] at length
        have room := room_of_parseFields found
        have commas : piece.count 44 ≤ piece.length := List.count_le_length
        have buffer : lineBuffer = 2048 := rfl
        unfold Fits at fits
        omega
  · rw [rowsRead, csvRow,
      fgetsAll_line (ok.not_mem_csvLine (.inr (.inl rfl))) (Nat.not_le.mp long)]
    exact List.filterMap_cons_some ok.parseLine_csvRow

theorem stored_not_mem_rowsRead {m : TokenMeta} (ok : Writable m) (unfit : ¬ Fits m) :
    m.stored ∉ rowsRead m := by
  have long : lineBuffer ≤ (csvLine m).length := Nat.not_lt.mp fun short => unfit (.inl short)
  rcases rowsRead_of_long ok.toTextOk (by omega) with ⟨later, reads, pieces⟩
  rw [reads, List.mem_append, not_or, Option.mem_toList]
  refine ⟨not_stored_of_first ok unfit, fun mem => ?_⟩
  rcases List.mem_filterMap.mp mem with ⟨read, mem, parsed⟩
  rcases pieces read mem with ⟨before, piece, after, line, past, small, eq⟩
  exact not_stored_of_later ok line past small (eq.symm.trans parsed)

theorem rowsRead_iff {m : TokenMeta} (ok : Writable m) : rowsRead m = [m.stored] ↔ Fits m := by
  refine ⟨fun read => ?_, rowsRead_of_fits ok.toTextOk⟩
  by_contra unfit
  refine stored_not_mem_rowsRead ok unfit ?_
  rw [read]
  exact List.mem_singleton_self _

/-- **The round trip, exactly.** The rows that were written are read back if and only if each of
them fits. -/
theorem readCsvTokens_encode_iff {rows : List TokenMeta} (ok : ∀ m ∈ rows, Writable m) :
    readCsvTokens (some (encodeCsv rows)) = rows.map TokenMeta.stored ↔ ∀ m ∈ rows, Fits m := by
  have once : ∀ m ∈ rows, rowsRead m = [m.stored] ∨ m.stored ∉ rowsRead m := by
    intro m mem
    by_cases fits : Fits m
    · exact .inl (rowsRead_of_fits (ok m mem).toTextOk fits)
    · exact .inr (stored_not_mem_rowsRead (ok m mem) fits)
  rw [readCsvTokens_encode_eq, flatMap_eq_map_iff once]
  exact forall₂_congr fun m mem => rowsRead_iff (ok m mem)

/-- A question with a quote, a comma and a line break. -/
theorem readCsvTokens_encode_iff_quoted :
    let m : TokenMeta :=
      ⟨ascii "1", ascii "0xa", ascii "YES", ascii "\"a\", b\n", ascii "2026-01-02", true, 250⟩
    readCsvTokens (some (encodeCsv [m])) = [m].map TokenMeta.stored ↔ ∀ m' ∈ [m], Fits m' :=
  readCsvTokens_encode_iff (by decide +kernel)

/-- A row whose question fills the buffer does not come back. -/
theorem long_question_lost :
    ¬ ∀ rows : List TokenMeta, (∀ m ∈ rows, Writable m) →
      readCsvTokens (some (encodeCsv rows)) = rows.map TokenMeta.stored := by
  intro always
  let m : TokenMeta :=
    { tokenId := ascii "1", conditionId := ascii "0xa", outcome := ascii "YES"
      question := List.replicate 2048 120, endDate := ascii "2026-01-02", active := true
      takerFeeBps := 0 }
  have ok : Writable m := by
    refine ⟨⟨by decide +kernel, by decide +kernel, by decide +kernel, by decide +kernel,
      fun mem => ?_⟩, by decide⟩
    cases List.eq_of_mem_replicate mem
  have long : 2057 ≤ (csvLine m).length := by
    have length := ok.toTextOk.length_csvLine
    have question : m.question.length = 2048 := List.length_replicate
    unfold TokenMeta.width at length
    omega
  have unfit : ¬ Fits m := by
    have buffer : lineBuffer = 2048 := rfl
    unfold Fits
    omega
  have read := always [m] (List.forall_mem_singleton.mpr ok)
  rw [readCsvTokens_encode_eq, List.flatMap_singleton] at read
  refine stored_not_mem_rowsRead ok unfit ?_
  rw [read]
  exact List.mem_singleton_self _

end Tickscope.Gateway
