import Mathlib.Data.List.Sort
import Mathlib.Algebra.Order.Ring.Nat
import Mathlib.Tactic.Ring

namespace AceChain

def leNat : List UInt8 → Nat
  | [] => 0
  | b :: rest => b.toNat + 256 * leNat rest

variable (width n : Nat)

def leBytes : List UInt8 := (List.range width).map (fun i => (n / 256 ^ i).toUInt8)

def asciiBytes (text : String) : List UInt8 := text.toList.map (fun c => c.toNat.toUInt8)

@[simp] theorem length_leBytes : (leBytes width n).length = width := by simp [leBytes]

theorem leBytes_succ : leBytes (width + 1) n = n.toUInt8 :: leBytes width (n / 256) := by
  unfold leBytes
  rw [List.range_succ_eq_map, List.map_cons, List.map_map]
  simp [Function.comp_def, Nat.div_div_eq_div_mul, pow_succ']

theorem leNat_leBytes : leNat (leBytes width n) = n % 256 ^ width := by
  induction width generalizing n with
  | zero => simp [leBytes, leNat, Nat.mod_one]
  | succ width ih =>
    have low : n.toUInt8.toNat = n % 256 := by simp
    rw [leBytes_succ, leNat, ih, low, pow_succ', Nat.mod_mul]

theorem leNat_lt (bytes : List UInt8) : leNat bytes < 256 ^ bytes.length := by
  induction bytes with
  | nil => simp [leNat]
  | cons b rest ih =>
    have low := b.toNat_lt
    rw [leNat, List.length_cons, pow_succ']
    omega

theorem leBytes_leNat (bytes : List UInt8) : leBytes bytes.length (leNat bytes) = bytes := by
  induction bytes with
  | nil => rfl
  | cons b rest ih =>
    have low := b.toNat_lt
    have byte : (leNat (b :: rest)).toUInt8 = b := by
      apply UInt8.toNat_inj.mp
      simp [leNat]
    have above : leNat (b :: rest) / 256 = leNat rest := by
      rw [leNat]
      omega
    rw [List.length_cons, leBytes_succ, byte, above, ih]

theorem leBytes_injective {width n m : Nat} (first : n < 256 ^ width) (second : m < 256 ^ width)
    (same : leBytes width n = leBytes width m) : n = m := by
  have values := congrArg leNat same
  rwa [leNat_leBytes, leNat_leBytes, Nat.mod_eq_of_lt first, Nat.mod_eq_of_lt second] at values

end AceChain

namespace AceChain.Lib

variable {α β κ κ' : Type*}

/-- Whatever follows an encoding can be cut off: the encoding of an admitted value determines its key and where it ends. -/
def Separates (admitted : α → Prop) (encode : α → List UInt8) (key : α → κ) : Prop :=
  ∀ ⦃a b : α⦄, admitted a → admitted b → ∀ ⦃rest rest' : List UInt8⦄,
    encode a ++ rest = encode b ++ rest' → key a = key b ∧ rest = rest'

namespace Separates

variable {admitted : α → Prop} {encode encode' : α → List UInt8} {key : α → κ} {key' : α → κ'}

theorem fixed {width : Nat} (length : ∀ a, (encode a).length = width)
    (injective : ∀ a b, admitted a → admitted b → encode a = encode b → key a = key b) :
    Separates admitted encode key := by
  intro a b ha hb rest rest' same
  obtain ⟨front, back⟩ := List.append_inj same ((length a).trans (length b).symm)
  exact ⟨injective a b ha hb front, back⟩

theorem append (first : Separates admitted encode key) (second : Separates admitted encode' key') :
    Separates admitted (fun a => encode a ++ encode' a) (fun a => (key a, key' a)) := by
  intro a b ha hb rest rest' same
  rw [List.append_assoc, List.append_assoc] at same
  obtain ⟨front, same⟩ := first ha hb same
  obtain ⟨back, same⟩ := second ha hb same
  exact ⟨Prod.ext front back, same⟩

theorem tagged {inner : β → List UInt8} {field : α → Option β} {tag : UInt8} {P : β → Prop}
    (present : tag ≠ 0) (separates : Separates P inner id)
    (inside : ∀ a value, admitted a → field a = some value → P value) :
    Separates admitted (fun a => match field a with | some value => tag :: inner value | none => [0]) field := by
  intro a b ha hb rest rest' same
  dsimp only at same
  cases left : field a with
  | none =>
    cases right : field b with
    | none =>
      rw [left, right] at same
      exact ⟨rfl, (List.cons.inj same).2⟩
    | some value =>
      rw [left, right] at same
      exact absurd (List.cons.inj same).1.symm present
  | some value =>
    cases right : field b with
    | none =>
      rw [left, right] at same
      exact absurd (List.cons.inj same).1 present
    | some value' =>
      rw [left, right] at same
      obtain ⟨equal, same⟩ := separates (inside a value ha left) (inside b value' hb right) (List.cons.inj same).2
      exact ⟨congrArg some equal, same⟩

theorem lengthPrefixed {width : Nat} :
    Separates (fun bytes : List UInt8 => bytes.length < 256 ^ width)
      (fun bytes => leBytes width bytes.length ++ bytes) id := by
  intro a b ha hb rest rest' same
  rw [List.append_assoc, List.append_assoc] at same
  obtain ⟨size, same⟩ := List.append_inj same (by simp)
  exact List.append_inj same (leBytes_injective ha hb size)

end Separates

theorem length_flatMap_fixed {encode : α → List UInt8} {w : Nat} (length : ∀ a, (encode a).length = w)
    (items : List α) : (items.flatMap encode).length = w * items.length := by
  induction items with
  | nil => simp
  | cons item rest ih =>
    rw [List.flatMap_cons, List.length_append, length, ih, List.length_cons]
    ring

theorem flatMap_fixed_injective {encode : α → List UInt8} {w : Nat} (positive : 0 < w)
    (length : ∀ a, (encode a).length = w) (injective : ∀ a b, encode a = encode b → a = b) {items items' : List α}
    (same : items.flatMap encode = items'.flatMap encode) : items = items' := by
  induction items generalizing items' with
  | nil =>
    have sizes := congrArg List.length same
    rw [length_flatMap_fixed length, length_flatMap_fixed length] at sizes
    cases items' with
    | nil => rfl
    | cons item rest =>
      exact absurd sizes.symm (Nat.mul_ne_zero positive.ne' (Nat.succ_ne_zero _))
  | cons item rest ih =>
    cases items' with
    | nil =>
      have sizes := congrArg List.length same
      rw [length_flatMap_fixed length, length_flatMap_fixed length, List.length_nil, Nat.mul_zero,
        List.length_cons] at sizes
      exact absurd sizes (Nat.mul_ne_zero positive.ne' (Nat.succ_ne_zero _))
    | cons item' rest' =>
      obtain ⟨front, back⟩ := List.append_inj same ((length item).trans (length item').symm)
      rw [injective _ _ front, ih back]

end AceChain.Lib
