import Mathlib.Data.List.Sort

namespace AceChain.Lib

open Std.TreeMap Std Std.LawfulEqCmp

variable {κ β : Type*} {cmp : κ → κ → Ordering} [TransCmp cmp] {m m' : TreeMap κ β cmp}

theorem lookup_eq_of_toList (same : m.toList = m'.toList) (key : κ) : m[key]? = m'[key]? :=
  (equiv_iff_toList_eq.mpr same).getElem?_eq

theorem nodup_toList (m : TreeMap κ β cmp) : m.toList.Nodup := by
  apply List.Nodup.of_map Prod.fst
  rw [map_fst_toList_eq_keys]
  exact nodup_keys

theorem isEmpty_iff_lookup (m : TreeMap κ β cmp) : m.isEmpty = true ↔ ∀ key : κ, m[key]? = none := by
  rw [isEmpty_iff_forall_contains]
  apply forall_congr'
  intro key
  rw [contains_eq_isSome_getElem?]
  cases m[key]? <;> simp

variable [LawfulEqCmp cmp]

theorem toList_eq_of_lookup (same : ∀ key : κ, m[key]? = m'[key]?) : m.toList = m'.toList :=
  equiv_iff_toList_eq.mp (.of_forall_constGet?_eq same)

theorem toList_eq_of_values {keyOf : β → κ}
    (own : ∀ (key : κ) value, m[key]? = some value → keyOf value = key)
    (own' : ∀ (key : κ) value, m'[key]? = some value → keyOf value = key)
    (same : m.toList.map Prod.snd = m'.toList.map Prod.snd) : m.toList = m'.toList := by
  have rebuilt : ∀ {m : TreeMap κ β cmp}, (∀ (key : κ) value, m[key]? = some value → keyOf value = key) →
      (m.toList.map Prod.snd).map (fun value => (keyOf value, value)) = m.toList := by
    intro m own
    rw [List.map_map]
    conv_rhs => rw [← List.map_id m.toList]
    apply List.map_congr_left
    rintro ⟨key, value⟩ listed
    exact Prod.ext (own key value (mem_toList_iff_getElem?_eq_some.mp listed)) rfl
  rw [← rebuilt own, ← rebuilt own', same]

variable [DecidableEq κ]

theorem lookup_insert (m : TreeMap κ β cmp) (key other : κ) (value : β) :
    (m.insert key value)[other]? = if other = key then some value else m[other]? := by
  rw [getElem?_insert]
  by_cases same : other = key
  · rw [if_pos same, same, if_pos Std.ReflCmp.compare_self]
  · rw [if_neg same, if_neg (fun equal => same (eq_of_compare equal).symm)]

theorem lookup_erase (m : TreeMap κ β cmp) (key other : κ) :
    (m.erase key)[other]? = if other = key then none else m[other]? := by
  rw [getElem?_erase]
  by_cases same : other = key
  · rw [if_pos same, same, if_pos Std.ReflCmp.compare_self]
  · rw [if_neg same, if_neg (fun equal => same (eq_of_compare equal).symm)]

theorem lookup_modify (m : TreeMap κ β cmp) (key other : κ) (f : β → β) :
    (m.modify key f)[other]? = if other = key then m[other]?.map f else m[other]? := by
  rw [getElem?_modify]
  by_cases same : other = key
  · rw [if_pos same, same, if_pos Std.ReflCmp.compare_self]
  · rw [if_neg same, if_neg (fun equal => same (eq_of_compare equal).symm)]

theorem lookup_foldl_insert {γ : Type*} (m : TreeMap κ β cmp) (value : κ → β → γ) (start : TreeMap κ γ cmp) (key : κ) :
    (m.foldl (fun into key entry => into.insert key (value key entry)) start)[key]? =
      match m[key]? with
      | some entry => some (value key entry)
      | none => start[key]? := by
  have many : ∀ (entries : List (κ × β)) (start : TreeMap κ γ cmp),
      entries.foldl (fun into entry => into.insert entry.1 (value entry.1 entry.2)) start =
        start.insertMany (entries.map (fun entry => (entry.1, value entry.1 entry.2))) := by
    intro entries
    induction entries with
    | nil => exact fun _ => rfl
    | cons entry entries ih =>
      intro start
      rw [List.foldl_cons, ih, List.map_cons, insertMany_cons]
  rw [foldl_eq_foldl_toList, many]
  cases found : m[key]? with
  | none =>
    apply getElem?_insertMany_list_of_contains_eq_false
    rw [List.map_map]
    change ((m.toList.map Prod.fst).contains key) = false
    rw [map_fst_toList_eq_keys]
    cases listed : m.keys.contains key with
    | false => rfl
    | true =>
      have member := mem_keys.mp (List.contains_iff_mem.mp listed)
      rw [getElem?_eq_some_getElem member] at found
      cases found
  | some entry =>
    apply getElem?_insertMany_list_of_mem Std.ReflCmp.compare_self
    · exact List.pairwise_map.mpr distinct_keys_toList
    · exact List.mem_map.mpr ⟨(key, entry), mem_toList_iff_getElem?_eq_some.mpr found, rfl⟩

end AceChain.Lib
