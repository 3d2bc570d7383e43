import Mathlib.Algebra.Order.Group.Nat
import Mathlib.Data.List.DropRight
import Mathlib.Data.List.TakeWhile
import Tickscope.Lib.Str

/-!
# Records of bytes

Little-endian numbers, strides of a fixed width through a byte string, NUL-padded fields, and text
in UTF-8 as it is decoded strictly.
-/

namespace Tickscope.Lib

/-! ## Little-endian numbers -/

/-- The `width` low bytes of a number, the lowest first. -/
def leBytes : Nat → Nat → Str
  | 0, _ => []
  | width + 1, n => UInt8.ofNat (n % 256) :: leBytes width (n / 256)

/-- The number that some bytes write. -/
def ofLeBytes : Str → Nat
  | [] => 0
  | b :: s => b.toNat + 256 * ofLeBytes s

@[simp] theorem length_leBytes (width n : Nat) : (leBytes width n).length = width := by
  induction width generalizing n with
  | zero => rfl
  | succ width ih => rw [leBytes, List.length_cons, ih]

theorem ofLeBytes_leBytes (width : Nat) {n : Nat} (lt : n < 256 ^ width) :
    ofLeBytes (leBytes width n) = n := by
  induction width generalizing n with
  | zero =>
      rw [Nat.pow_zero, Nat.lt_one_iff] at lt
      rw [lt]
      rfl
  | succ width ih =>
      have high : n / 256 < 256 ^ width := by
        rw [Nat.div_lt_iff_lt_mul (by decide), ← Nat.pow_succ]
        exact lt
      have low : (UInt8.ofNat (n % 256)).toNat = n % 256 := by
        rw [UInt8.toNat_ofNat', Nat.mod_mod_of_dvd n (by decide)]
      rw [leBytes, ofLeBytes, ih high, low]
      omega

/-! ## Strides -/

/-- The first `n` pieces of `width` bytes. -/
def strides (width : Nat) : Nat → Str → List Str
  | 0, _ => []
  | n + 1, s => s.take width :: strides width n (s.drop width)

@[simp] theorem length_strides (width n : Nat) (s : Str) : (strides width n s).length = n := by
  induction n generalizing s with
  | zero => rfl
  | succ n ih => rw [strides, List.length_cons, ih]

/-- The strides are the pieces that were put together. -/
theorem strides_flatten {width : Nat} {pieces : List Str}
    (fixed : ∀ piece ∈ pieces, piece.length = width) (rest : Str) :
    strides width pieces.length (pieces.flatten ++ rest) = pieces := by
  induction pieces with
  | nil => rfl
  | cons piece pieces ih =>
      rw [List.forall_mem_cons] at fixed
      rw [List.length_cons, strides, List.flatten_cons, List.append_assoc,
        List.take_left' fixed.1, List.drop_left' fixed.1, ih fixed.2]

/-- Without what is left behind the last stride, nothing is lost. -/
theorem flatten_strides (width n : Nat) (s : Str) :
    (strides width n s).flatten = s.take (n * width) := by
  induction n generalizing s with
  | zero => rw [Nat.zero_mul, List.take_zero]; rfl
  | succ n ih => rw [strides, List.flatten_cons, ih, Nat.succ_mul, Nat.add_comm, List.take_add]

theorem length_flatten_of_fixed {width : Nat} {pieces : List Str}
    (fixed : ∀ piece ∈ pieces, piece.length = width) :
    pieces.flatten.length = pieces.length * width := by
  induction pieces with
  | nil => rw [List.length_nil, Nat.zero_mul]; rfl
  | cons piece pieces ih =>
      rw [List.forall_mem_cons] at fixed
      rw [List.flatten_cons, List.length_append, ih fixed.2, fixed.1, List.length_cons,
        Nat.succ_mul, Nat.add_comm]

theorem flatten_take_of_fixed {width : Nat} {pieces : List Str}
    (fixed : ∀ piece ∈ pieces, piece.length = width) (n : Nat) :
    (pieces.take n).flatten = pieces.flatten.take (n * width) := by
  induction pieces generalizing n with
  | nil => rw [List.take_nil, List.flatten_nil, List.take_nil]
  | cons piece pieces ih =>
      rw [List.forall_mem_cons] at fixed
      cases n with
      | zero => rw [Nat.zero_mul, List.take_zero, List.take_zero]; rfl
      | succ n =>
          rw [List.take_succ_cons, List.flatten_cons, List.flatten_cons, ih fixed.2,
            Nat.succ_mul, Nat.add_comm, ← fixed.1, List.take_length_add_append]

/-- **Reading in strides.** The whole strides of a byte string are given pieces exactly if it
starts with them and has no further stride. -/
theorem strides_eq_iff {width : Nat} (pos : 0 < width) {pieces : List Str}
    (fixed : ∀ piece ∈ pieces, piece.length = width) (s : Str) :
    strides width (s.length / width) s = pieces ↔
      pieces.flatten <+: s ∧ s.length < (pieces.length + 1) * width := by
  have length := length_flatten_of_fixed fixed
  constructor
  · intro same
    have count : s.length / width = pieces.length := by rw [← same, length_strides]
    constructor
    · rw [← same, flatten_strides]
      exact List.take_prefix _ _
    · rw [← count]
      exact Nat.lt_mul_of_div_lt (Nat.lt_succ_self _) pos
  · rintro ⟨⟨rest, rfl⟩, lt⟩
    have count : (pieces.flatten ++ rest).length / width = pieces.length := by
      rw [List.length_append, length] at lt ⊢
      rw [Nat.succ_mul] at lt
      rw [Nat.mul_comm, Nat.mul_add_div pos, Nat.div_eq_of_lt (by omega), Nat.add_zero]
    rw [count, strides_flatten fixed]

/-! ## Fields -/

/-- A record cut into fields of the given widths. -/
def fields : List Nat → Str → List Str
  | [], _ => []
  | width :: widths, s => s.take width :: fields widths (s.drop width)

/-- The fields are those that the record was put together from. -/
theorem fields_flatten (parts : List Str) :
    fields (parts.map List.length) parts.flatten = parts := by
  induction parts with
  | nil => rfl
  | cons part parts ih =>
      rw [List.map_cons, fields, List.flatten_cons, List.take_left' rfl, List.drop_left' rfl, ih]

/-! ## NUL-padded fields -/

/-- `rstrip` of NULs takes the padding only if nothing else comes behind the first NUL. -/
theorem rdropWhile_nul_iff (s : Str) :
    s.rdropWhile (· = 0) = s.takeWhile (· ≠ 0) ↔ ∀ b ∈ s.dropWhile (· ≠ 0), b = 0 := by
  have parts := List.takeWhile_append_dropWhile (p := fun b : UInt8 => decide (b ≠ 0)) (l := s)
  constructor
  · intro same b mem
    have ends := List.rdropWhile_append_rtakeWhile (p := fun b : UInt8 => decide (b = 0)) (l := s)
    rw [same] at ends
    have nuls := List.append_cancel_left (ends.trans parts.symm)
    rw [← nuls] at mem
    have nul := List.mem_rtakeWhile_imp mem
    exact of_decide_eq_true nul
  · intro nuls
    conv_lhs => rw [← parts]
    generalize s.dropWhile (fun b => decide (b ≠ 0)) = padding at nuls
    have key : ∀ b ∈ s.takeWhile (fun b => decide (b ≠ 0)), b ≠ 0 := by
      intro b mem
      have kept := List.mem_takeWhile_imp mem
      exact of_decide_eq_true kept
    generalize s.takeWhile (fun b => decide (b ≠ 0)) = text at key
    induction padding using List.reverseRecOn with
    | nil =>
        rw [List.append_nil, List.rdropWhile_eq_self_iff]
        intro nonempty
        rw [decide_eq_true_eq]
        exact key _ (List.getLast_mem nonempty)
    | append_singleton padding b ih =>
        rw [List.forall_mem_append, List.forall_mem_singleton] at nuls
        have last := List.rdropWhile_concat_pos (fun b : UInt8 => decide (b = 0)) (text ++ padding)
          b (decide_eq_true nuls.2)
        rw [← List.append_assoc, last, ih nuls.1]

/-! ## UTF-8 -/

def encodeUtf8 (text : List Char) : Str := text.flatMap String.utf8EncodeChar

/-- `bytes.decode('utf-8')`; bytes that are not valid are refused. -/
def decodeUtf8 (s : Str) : Option (List Char) := s.toByteArray.utf8Decode?.map Array.toList

def ValidUtf8 (s : Str) : Prop := s.toByteArray.IsValidUTF8

instance (s : Str) : Decidable (ValidUtf8 s) :=
  inferInstanceAs (Decidable (ByteArray.IsValidUTF8 _))

theorem decodeUtf8_eq_some_iff {s : Str} {text : List Char} :
    decodeUtf8 s = some text ↔ encodeUtf8 text = s := by
  constructor
  · intro decoded
    obtain ⟨chars, found, rfl⟩ := Option.map_eq_some_iff.mp decoded
    have valid : s.toByteArray.utf8Decode?.isSome := by rw [found]; rfl
    have encoded := ByteArray.utf8Encode_get_utf8Decode? (b := s.toByteArray) (h := valid)
    rw [Option.get_of_eq_some valid found] at encoded
    exact List.toByteArray_inj.mp encoded
  · intro encoded
    have decoded := List.utf8Decode?_utf8Encode (l := text)
    rw [List.utf8Encode] at decoded
    rw [decodeUtf8, ← encoded, encodeUtf8, decoded]
    rfl

theorem isSome_decodeUtf8 (s : Str) : (∃ text, decodeUtf8 s = some text) ↔ ValidUtf8 s := by
  rw [← Option.isSome_iff_exists, decodeUtf8, Option.isSome_map, ByteArray.isSome_utf8Decode?_iff]
  rfl

end Tickscope.Lib
