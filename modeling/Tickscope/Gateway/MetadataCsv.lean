import Tickscope.Lib.Stdio

/-!
# The metadata CSV

How `src/gateway/MarketDiscovery.cpp` writes `market_metadata.csv` and reads it. A row that
`RowOk` describes is read back as it was written, with line breaks in the question turned into
spaces (`readCsvTokens_encode`).
-/

namespace Tickscope.Gateway

open Tickscope.Lib

structure TokenMeta where
  tokenId : Str
  conditionId : Str
  outcome : Str
  question : Str
  endDate : Str
  active : Bool
  takerFeeBps : Int
deriving DecidableEq

/-! ## Writing -/

/-- What `csv_escape_question` puts between the quotes. -/
def escapeBody : Str → Str
  | [] => []
  | c :: s =>
      if c = 10 ∨ c = 13 then 32 :: escapeBody s
      else if c = 34 then 34 :: 34 :: escapeBody s
      else c :: escapeBody s

def csvEscapeQuestion (s : Str) : Str := 34 :: escapeBody s ++ [34]

def csvHeader : Str :=
  ascii "asset_id,condition_id,outcome,question,end_date,active,taker_fee_bps"

/-- A row without its newline: the `fprintf` with `%s,%s,%s,%s,%s,%d,%d`. -/
def csvLine (m : TokenMeta) : Str :=
  cstr m.tokenId ++ 44 :: (cstr m.conditionId ++ 44 :: (cstr m.outcome ++ 44 ::
    (cstr (csvEscapeQuestion m.question) ++ 44 :: (cstr m.endDate ++ 44 ::
      ((if m.active then ascii "1" else ascii "0") ++ 44 :: signedDecimal m.takerFeeBps)))))

def csvRow (m : TokenMeta) : Str := csvLine m ++ [10]

/-- `write_metadata_csv`: the file that it leaves. -/
def encodeCsv (rows : List TokenMeta) : Str := csvHeader ++ 10 :: rows.flatMap csvRow

/-! ## Reading -/

/-- The buffer of `read_csv_tokens`. -/
def lineBuffer : Nat := 2048

/-- The inside of a quoted field, and what follows the closing quote. -/
def scanQuoted : Str → Str × Str
  | [] => ([], [])
  | 34 :: 34 :: s => let (question, rest) := scanQuoted s; (34 :: question, rest)
  | 34 :: s => ([], s)
  | c :: s => let (question, rest) := scanQuoted s; (c :: question, rest)

/-- The question: in quotes, or up to the next comma. -/
def parseQuestion (p : Str) : Option (Str × Str) :=
  match p with
  | 34 :: p =>
      let (question, rest) := scanQuoted p
      match rest with
      | 44 :: rest => some (question, rest)
      | _ => some (question, rest)
  | _ => cut 44 p

/-- The fields of a stripped line. -/
def parseFields (line : Str) : Option TokenMeta :=
  (cut 44 line).bind fun (tokenId, p) =>
  (cut 44 p).bind fun (conditionId, p) =>
  (cut 44 p).bind fun (outcome, p) =>
  (parseQuestion p).bind fun (question, p) =>
  (cut 44 p).map fun (endDate, p) =>
    { tokenId := tokenId
      conditionId := conditionId
      outcome := outcome
      question := question
      endDate := endDate
      active := p.head? = some 49
      takerFeeBps := atoi ((p.dropWhile (· ≠ 44)).drop 1) }

/-- One read of the loop: strip the line break and parse what is left, if anything. -/
def parseLine (read : Str) : Option TokenMeta :=
  let line := (cstr read).rdropWhile fun b => b = 10 ∨ b = 13
  if line = [] then none else parseFields line

/-- `read_csv_tokens`; without a file there are no rows. -/
def readCsvTokens : Option Str → List TokenMeta
  | none => []
  | some text => ((fgetsAll lineBuffer text).drop 1).filterMap parseLine

/-! ## Round trip -/

/-- A field that can stand between commas on a line. -/
def FieldOk (s : Str) : Prop := ∀ b ∈ s, b ≠ 0 ∧ b ≠ 10 ∧ b ≠ 13 ∧ b ≠ 44

instance (s : Str) : Decidable (FieldOk s) :=
  inferInstanceAs (Decidable (∀ b ∈ s, b ≠ 0 ∧ b ≠ 10 ∧ b ≠ 13 ∧ b ≠ 44))

/-- A row that can be written and read. -/
structure RowOk (m : TokenMeta) : Prop where
  tokenId : FieldOk m.tokenId
  conditionId : FieldOk m.conditionId
  outcome : FieldOk m.outcome
  endDate : FieldOk m.endDate
  question : 0 ∉ m.question
  fits : (csvLine m).length + 1 < lineBuffer

instance (m : TokenMeta) : Decidable (RowOk m) :=
  decidable_of_iff
    (FieldOk m.tokenId ∧ FieldOk m.conditionId ∧ FieldOk m.outcome ∧ FieldOk m.endDate ∧
      0 ∉ m.question ∧ (csvLine m).length + 1 < lineBuffer)
    ⟨fun ⟨h₁, h₂, h₃, h₄, h₅, h₆⟩ => ⟨h₁, h₂, h₃, h₄, h₅, h₆⟩,
      fun ⟨h₁, h₂, h₃, h₄, h₅, h₆⟩ => ⟨h₁, h₂, h₃, h₄, h₅, h₆⟩⟩

/-- The texts of a row can be written: what `RowOk` says without the length. -/
structure TextOk (m : TokenMeta) : Prop where
  tokenId : FieldOk m.tokenId
  conditionId : FieldOk m.conditionId
  outcome : FieldOk m.outcome
  endDate : FieldOk m.endDate
  question : 0 ∉ m.question

theorem RowOk.textOk {m : TokenMeta} (ok : RowOk m) : TextOk m :=
  ⟨ok.tokenId, ok.conditionId, ok.outcome, ok.endDate, ok.question⟩

/-- The row as the file has it: line breaks in the question are spaces. -/
def TokenMeta.stored (m : TokenMeta) : TokenMeta :=
  { m with question := m.question.map fun c => if c = 10 ∨ c = 13 then 32 else c }

namespace FieldOk

variable {s : Str}

theorem noComma (ok : FieldOk s) : 44 ∉ s := fun mem => (ok 44 mem).2.2.2 rfl

theorem noNul (ok : FieldOk s) : 0 ∉ s := fun mem => (ok 0 mem).1 rfl

theorem noNewline (ok : FieldOk s) : 10 ∉ s := fun mem => (ok 10 mem).2.1 rfl

end FieldOk

theorem mem_escapeBody {s : Str} {b : UInt8} (mem : b ∈ escapeBody s) :
    b = 32 ∨ b ∈ s ∧ b ≠ 10 ∧ b ≠ 13 := by
  induction s with
  | nil => cases mem
  | cons c s ih =>
      have later : b ∈ escapeBody s → b = 32 ∨ b ∈ c :: s ∧ b ≠ 10 ∧ b ≠ 13 := fun mem =>
        (ih mem).imp_right fun ⟨mem, plain⟩ => ⟨List.mem_cons_of_mem c mem, plain⟩
      have here : ¬ (c = 10 ∨ c = 13) → b = c → b ∈ c :: s ∧ b ≠ 10 ∧ b ≠ 13 := by
        rintro plain rfl
        exact ⟨List.mem_cons_self, not_or.mp plain⟩
      rw [escapeBody] at mem
      split at mem
      · exact (List.mem_cons.mp mem).elim .inl later
      · rename_i plain
        split at mem
        · rename_i quote
          rcases List.mem_cons.mp mem with same | mem
          · exact .inr (here plain (same.trans quote.symm))
          · rcases List.mem_cons.mp mem with same | mem
            · exact .inr (here plain (same.trans quote.symm))
            · exact later mem
        · rcases List.mem_cons.mp mem with same | mem
          · exact .inr (here plain same)
          · exact later mem

/-- The reader finds the end of what the writer has quoted. -/
theorem scanQuoted_escapeBody (s rest : Str) :
    scanQuoted (escapeBody s ++ 34 :: 44 :: rest) =
      (s.map fun c => if c = 10 ∨ c = 13 then 32 else c, 44 :: rest) := by
  induction s with
  | nil => rfl
  | cons c s ih =>
      rw [escapeBody, List.map_cons]
      split
      · rw [List.cons_append, scanQuoted, ih]
        · simp
        · simp
      · split
        · rename_i quote
          rw [List.cons_append, List.cons_append, scanQuoted, ih, quote]
        · rename_i noQuote
          rw [List.cons_append, scanQuoted, ih]
          · exact fun _ same => (noQuote same).elim
          · exact noQuote

theorem cstr_csvEscapeQuestion {s : Str} (noNul : 0 ∉ s) :
    cstr (csvEscapeQuestion s) = csvEscapeQuestion s := by
  refine cstr_eq_self fun mem => ?_
  rcases List.mem_append.mp mem with mem | mem
  · rcases List.mem_cons.mp mem with same | mem
    · cases same
    · rcases mem_escapeBody mem with same | ⟨mem, -⟩
      · cases same
      · exact noNul mem
  · cases List.mem_singleton.mp mem

theorem parseQuestion_csvEscapeQuestion (s rest : Str) :
    parseQuestion (csvEscapeQuestion s ++ 44 :: rest) =
      some (s.map fun c => if c = 10 ∨ c = 13 then 32 else c, rest) := by
  rw [csvEscapeQuestion, List.cons_append, List.cons_append, List.append_assoc,
    List.singleton_append, parseQuestion, scanQuoted_escapeBody]
  rfl

/-- A line and the same line with its newline are read alike. -/
theorem parseLine_clean {c : Str} (clean : 0 ∉ c ∧ 10 ∉ c ∧ 13 ∉ c) :
    parseLine c = parseFields c ∧ parseLine (c ++ [10]) = parseFields c := by
  have stripped : c.rdropWhile (fun b => decide (b = 10 ∨ b = 13)) = c := by
    rcases List.eq_nil_or_concat' c with rfl | ⟨text, b, rfl⟩
    · rfl
    · refine List.rdropWhile_concat_neg _ _ _ ?_
      rw [decide_eq_true_eq]
      have last : b ∈ text ++ [b] := List.mem_append_right _ (List.mem_singleton_self b)
      exact fun control => control.elim (fun same => clean.2.1 (same ▸ last))
        fun same => clean.2.2 (same ▸ last)
  have parsed : (if c = [] then none else parseFields c) = parseFields c := by
    split
    · rename_i empty
      rw [empty]
      rfl
    · rfl
  constructor
  · rw [parseLine, cstr_eq_self clean.1, stripped]
    exact parsed
  · have noNul : 0 ∉ c ++ [10] := by
      rw [List.mem_append, not_or]
      exact ⟨clean.1, by decide⟩
    rw [parseLine, cstr_eq_self noNul, List.rdropWhile_concat_pos _ _ _ (by decide), stripped]
    exact parsed

namespace TextOk

variable {m : TokenMeta}

theorem csvLine_eq (ok : TextOk m) :
    csvLine m = m.tokenId ++ 44 :: (m.conditionId ++ 44 :: (m.outcome ++ 44 ::
      (csvEscapeQuestion m.question ++ 44 :: (m.endDate ++ 44 ::
        ((if m.active then ascii "1" else ascii "0") ++ 44 :: signedDecimal m.takerFeeBps))))) := by
  rw [csvLine, cstr_eq_self ok.tokenId.noNul, cstr_eq_self ok.conditionId.noNul,
    cstr_eq_self ok.outcome.noNul, cstr_csvEscapeQuestion ok.question,
    cstr_eq_self ok.endDate.noNul]

/-- The texts are read back; the flag and the fee are read from what follows. -/
theorem parseFields_head (ok : TextOk m) (p : Str) :
    parseFields (m.tokenId ++ 44 :: (m.conditionId ++ 44 :: (m.outcome ++ 44 ::
      (csvEscapeQuestion m.question ++ 44 :: (m.endDate ++ 44 :: p))))) =
        some { m.stored with
          active := p.head? = some 49
          takerFeeBps := atoi ((p.dropWhile (· ≠ 44)).drop 1) } := by
  simp only [parseFields, cut_append ok.tokenId.noComma, cut_append ok.conditionId.noComma,
    cut_append ok.outcome.noComma, parseQuestion_csvEscapeQuestion,
    cut_append ok.endDate.noComma, Option.bind_some, Option.map_some]
  rfl

theorem parseFields_csvLine (ok : TextOk m) : parseFields (csvLine m) = some m.stored := by
  rw [ok.csvLine_eq, ok.parseFields_head]
  -- what is left are the flag and the fee
  rcases m with ⟨tokenId, conditionId, outcome, question, endDate, active, takerFeeBps⟩
  cases active
  all_goals
    refine congrArg some ?_
    rw [TokenMeta.stored, TokenMeta.mk.injEq]
    exact ⟨rfl, rfl, rfl, rfl, rfl, rfl, atoi_signedDecimal takerFeeBps⟩

theorem not_mem_csvLine (ok : TextOk m) {b : UInt8} (control : b = 0 ∨ b = 10 ∨ b = 13) :
    b ∉ csvLine m := by
  have field : ∀ {s : Str}, FieldOk s → b ∉ s := fun ok mem => by
    rcases ok b mem with ⟨noNul, noNewline, noReturn, -⟩
    exact control.elim noNul fun rest => rest.elim noNewline noReturn
  have question : b ∉ csvEscapeQuestion m.question := by
    intro mem
    rcases List.mem_append.mp mem with mem | mem
    · rcases List.mem_cons.mp mem with rfl | mem
      · exact absurd control (by decide)
      · rcases mem_escapeBody mem with rfl | ⟨mem, noNewline, noReturn⟩
        · exact absurd control (by decide)
        · exact control.elim (fun nul => ok.question (nul ▸ mem)) fun rest =>
            rest.elim noNewline noReturn
    · rw [List.mem_singleton.mp mem] at control
      exact absurd control (by decide)
  have comma : b ≠ 44 := by
    intro same
    subst same
    exact absurd control (by decide)
  have flag : b ∉ (if m.active then ascii "1" else ascii "0") := by
    rcases control with rfl | rfl | rfl <;> split <;> decide
  have fee : b ∉ signedDecimal m.takerFeeBps := by
    intro mem
    have code : b = 45 ∨ isDigit b = true := mem_signedDecimal mem
    rcases control with rfl | rfl | rfl <;> exact absurd code (by decide)
  rw [ok.csvLine_eq]
  simp only [List.mem_append, List.mem_cons, not_or]
  exact ⟨field ok.tokenId, comma, field ok.conditionId, comma, field ok.outcome, comma,
    question, comma, field ok.endDate, comma, flag, comma, fee⟩

/-- **One row.** A row is read back as it is stored. -/
theorem parseLine_csvRow (ok : TextOk m) : parseLine (csvRow m) = some m.stored := by
  have clean : 0 ∉ csvLine m ∧ 10 ∉ csvLine m ∧ 13 ∉ csvLine m :=
    ⟨ok.not_mem_csvLine (.inl rfl), ok.not_mem_csvLine (.inr (.inl rfl)),
      ok.not_mem_csvLine (.inr (.inr rfl))⟩
  rw [csvRow, (parseLine_clean clean).2, ok.parseFields_csvLine]

end TextOk

theorem fgetsAll_rows {rows : List TokenMeta} (ok : ∀ m ∈ rows, RowOk m) :
    fgetsAll lineBuffer (rows.flatMap csvRow) = rows.map csvRow := by
  induction rows with
  | nil => rfl
  | cons m rows ih =>
      rcases List.forall_mem_cons.mp ok with ⟨here, later⟩
      rw [List.flatMap_cons, csvRow, List.append_assoc, List.singleton_append,
        fgetsAll_line (here.textOk.not_mem_csvLine (.inr (.inl rfl))) here.fits, ih later]
      rfl

/-- **The round trip.** What is written is read back, in order. -/
theorem readCsvTokens_encode {rows : List TokenMeta} (ok : ∀ m ∈ rows, RowOk m) :
    readCsvTokens (some (encodeCsv rows)) = rows.map TokenMeta.stored := by
  have reads : fgetsAll lineBuffer (encodeCsv rows) = (csvHeader ++ [10]) :: rows.map csvRow := by
    rw [encodeCsv, fgetsAll_line (by decide) (by decide), fgetsAll_rows ok]
  rw [readCsvTokens, reads, List.drop_one, List.tail_cons, List.filterMap_map]
  exact List.filterMap_eq_map_iff_forall_eq_some.mpr fun m mem => (ok m mem).textOk.parseLine_csvRow

/-! ## Rows that have been read -/

theorem escapeBody_stored (s : Str) :
    escapeBody (s.map fun c => if c = 10 ∨ c = 13 then 32 else c) = escapeBody s := by
  induction s with
  | nil => rfl
  | cons c s ih =>
      rw [List.map_cons, escapeBody, escapeBody, ih]
      by_cases control : c = 10 ∨ c = 13
      · rw [if_pos control, if_pos control, if_neg (by decide), if_neg (by decide)]
      · rw [if_neg control, if_neg control]

/-- Writing a row that has been read gives its line again. -/
theorem csvLine_stored (m : TokenMeta) : csvLine m.stored = csvLine m := by
  unfold csvLine csvEscapeQuestion TokenMeta.stored
  rw [escapeBody_stored]

theorem RowOk.stored {m : TokenMeta} (ok : RowOk m) : RowOk m.stored where
  tokenId := ok.tokenId
  conditionId := ok.conditionId
  outcome := ok.outcome
  endDate := ok.endDate
  question := by
    intro mem
    rcases List.mem_map.mp mem with ⟨c, mem, eq⟩
    split at eq
    · cases eq
    · exact ok.question (eq ▸ mem)
  fits := csvLine_stored m ▸ ok.fits

/-- A row stays well formed when its market is marked as delisted. -/
theorem RowOk.delisted {m : TokenMeta} (ok : RowOk m) : RowOk { m with active := false } where
  tokenId := ok.tokenId
  conditionId := ok.conditionId
  outcome := ok.outcome
  endDate := ok.endDate
  question := ok.question
  fits := by
    have fits := ok.fits
    have length : (csvLine { m with active := false }).length = (csvLine m).length := by
      unfold csvLine
      simp only [List.length_append, List.length_cons]
      cases m.active <;> rfl
    rw [length]
    exact fits

end Tickscope.Gateway
