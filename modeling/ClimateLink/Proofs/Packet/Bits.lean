import Mathlib.Tactic.Ring
import ClimateLink.Wire.Bytes
import ClimateLink.Wire.Coded

/-!
# Packed bits read back

A byte that is packed from fields holds each of them where the widths of the fields in front of it
say.

**Theorem (`bits_pack`).** If the widths add up to eight, the bits at the place of a field hold the
number of that field, as far as its width reaches.

- `ofCode_pack`, `flag_pack`: named values and flags that were packed read back.
-/

namespace ClimateLink.Wire

/-! ## The number under construction -/

/-- The number of bits that fields take together. -/
def widths (fields : List (Nat × Nat)) : Nat := (fields.map Prod.fst).sum

/-- The number `acc` with one more field behind it. -/
def append (acc : Nat) (field : Nat × Nat) : Nat := acc <<< field.1 + field.2 % (1 <<< field.1)

theorem pack_eq (fields : List (Nat × Nat)) :
    pack fields = UInt8.ofNat (fields.foldl append 0) := rfl

theorem foldl_append (acc : Nat) (fields : List (Nat × Nat)) :
    fields.foldl append acc = acc * 2 ^ widths fields + fields.foldl append 0 := by
  induction fields generalizing acc with
  | nil => simp [widths]
  | cons f fields ih =>
    rw [List.foldl_cons, List.foldl_cons, ih, ih (append 0 f)]
    simp only [append, widths, List.map_cons, List.sum_cons, Nat.shiftLeft_eq, Nat.pow_add]
    ring

theorem foldl_append_lt (fields : List (Nat × Nat)) :
    fields.foldl append 0 < 2 ^ widths fields := by
  induction fields with
  | nil => simp [widths]
  | cons f fields ih =>
    have hf : f.2 % 2 ^ f.1 < 2 ^ f.1 := Nat.mod_lt _ (Nat.two_pow_pos _)
    have hw : widths (f :: fields) = f.1 + widths fields := rfl
    rw [List.foldl_cons, foldl_append, hw, Nat.pow_add]
    simp only [append, Nat.shiftLeft_eq, Nat.zero_mul, Nat.zero_add, Nat.one_mul]
    calc f.2 % 2 ^ f.1 * 2 ^ widths fields + fields.foldl append 0
        < (f.2 % 2 ^ f.1 + 1) * 2 ^ widths fields := by rw [Nat.add_mul]; omega
      _ ≤ 2 ^ f.1 * 2 ^ widths fields := Nat.mul_le_mul_right _ hf

/-! ## Reading a field -/

/-- **A packed field reads back**, as far as its width reaches. -/
theorem bits_pack (front : List (Nat × Nat)) (width n : Nat) (back : List (Nat × Nat))
    (h : widths front + width + widths back = 8) :
    bits (pack (front ++ (width, n) :: back)) (widths front) width =
      UInt8.ofNat (n % 2 ^ width) := by
  have hback : 8 - widths front - width = widths back := by omega
  have hlt := foldl_append_lt back
  have hn : n % 2 ^ width < 2 ^ width := Nat.mod_lt _ (Nat.two_pow_pos _)
  have htotal : (front ++ (width, n) :: back).foldl append 0 < 256 := by
    have hw : widths (front ++ (width, n) :: back) = 8 := by
      simp only [widths, List.map_append, List.map_cons, List.sum_append, List.sum_cons] at h ⊢
      omega
    have := foldl_append_lt (front ++ (width, n) :: back)
    rwa [hw] at this
  rw [bits, pack_eq, UInt8.toNat_ofNat', Nat.mod_eq_of_lt htotal, hback, List.foldl_append,
    List.foldl_cons, foldl_append]
  congr 1
  simp only [append, Nat.shiftLeft_eq, Nat.shiftRight_eq_div_pow, Nat.one_mul]
  -- The fields behind fall off to the right, and the remainder drops those in front.
  rw [Nat.mul_comm _ (2 ^ widths back), Nat.mul_add_div (Nat.two_pow_pos _),
    Nat.div_eq_of_lt hlt, Nat.add_zero, Nat.mul_comm _ (2 ^ width), Nat.mul_add_mod,
    Nat.mod_eq_of_lt hn]

theorem byte_pack (front : List (Nat × Nat)) (width : Nat) (b : UInt8) (back : List (Nat × Nat))
    (h : widths front + width + widths back = 8) (hb : b.toNat < 2 ^ width) :
    bits (pack (front ++ (width, b.toNat) :: back)) (widths front) width = b := by
  rw [bits_pack front width _ back h, Nat.mod_eq_of_lt hb, UInt8.ofNat_toNat]

theorem toNat_bits_lt (b : UInt8) (offset width : Nat) :
    (bits b offset width).toNat < 2 ^ width := by
  rw [bits, UInt8.toNat_ofNat', Nat.one_shiftLeft]
  exact (Nat.mod_le _ _).trans_lt (Nat.mod_lt _ (Nat.two_pow_pos width))

theorem flag_pack (front : List (Nat × Nat)) (set : Bool) (back : List (Nat × Nat))
    (h : widths front + 1 + widths back = 8) :
    flag (pack (front ++ (1, set.toNat) :: back)) (widths front) = set := by
  rw [flag, bits_pack front 1 _ back h]
  cases set <;> rfl

theorem mem_members {α : Type} [Coded α] (a : α) : a ∈ Coded.members (α := α) :=
  List.mem_of_find?_eq_some (Coded.find_code a)

/-- A named value that was packed reads back, if the codes of its type fit the width. -/
theorem ofCode_pack {α : Type} [Coded α] (front : List (Nat × Nat)) (width : Nat) (a : α)
    (back : List (Nat × Nat)) (h : widths front + width + widths back = 8)
    (fits : ∀ a ∈ Coded.members (α := α), (Coded.code a).toNat < 2 ^ width) :
    Coded.ofCode (bits (pack (front ++ (width, (Coded.code a).toNat) :: back)) (widths front)
      width) = a := by
  rw [byte_pack front width _ back h (fits a (mem_members a)), Coded.ofCode_code]

end ClimateLink.Wire
