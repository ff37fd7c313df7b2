import Mathlib.Data.List.Basic
import Mathlib.Data.List.Nodup

/-!
# Registries

A list of records with at most one record for each key.  The rules say how an
invariant of the records goes through the changes that keep the keys apart.
-/

namespace CS162.Foundation

universe u v

/-- Each key that is present has one record in the list, no other key has one,
and all records are good. -/
structure Registry {Record : Type u} {Key : Type v} (key : Record → Key)
    (records : List Record) (present : Key → Prop) (good : Record → Prop) :
    Prop where
  once : (records.map key).Nodup
  present_iff : ∀ wanted, present wanted ↔ ∃ record ∈ records, key record = wanted
  good : ∀ record ∈ records, good record

namespace Registry

variable {Record : Type u} {Key : Type v} {key : Record → Key}
variable {records : List Record}
variable {present present' : Key → Prop} {good good' : Record → Prop}

theorem nil (absent : ∀ wanted, ¬present wanted) : Registry key [] present good := by
  constructor
  · exact List.nodup_nil
  · intro wanted
    simp [absent wanted]
  · intro record member
    cases member

/-- Records with the same key are the same record. -/
theorem eq_of_key (registry : Registry key records present good)
    {first second : Record} (here : first ∈ records) (there : second ∈ records)
    (same : key first = key second) : first = second :=
  List.inj_on_of_nodup_map registry.once here there same

theorem mono (registry : Registry key records present good)
    (same : ∀ wanted, present' wanted ↔ present wanted)
    (weaker : ∀ record ∈ records, good record → good' record) :
    Registry key records present' good' := by
  constructor
  · exact registry.once
  · intro wanted
    rw [same]
    exact registry.present_iff wanted
  · intro record member
    exact weaker record member (registry.good record member)

/-- A record for a key that has none yet. -/
theorem cons (registry : Registry key records present good) (record : Record)
    (absent : ¬present (key record)) (fine : good' record)
    (others : ∀ other, good other → key other ≠ key record → good' other) :
    Registry key (record :: records)
      (fun other => other = key record ∨ present other) good' := by
  have fresh : ∀ other ∈ records, key other ≠ key record := by
    intro other member same
    exact absent ((registry.present_iff _).mpr ⟨other, member, same⟩)
  constructor
  · rw [List.map_cons, List.nodup_cons]
    constructor
    · intro member
      rcases List.mem_map.mp member with ⟨other, here, same⟩
      exact fresh other here same
    · exact registry.once
  · intro other
    rw [registry.present_iff]
    simp [eq_comm]
  · intro other member
    rcases List.mem_cons.mp member with rfl | old
    · exact fine
    · exact others other (registry.good other old) (fresh other old)

section Changes

variable [DecidableEq Key] {wanted : Key}

/-- Looking a record up by its key. -/
theorem find?_eq_some_iff (registry : Registry key records present good) {record : Record} :
    records.find? (key · = wanted) = some record ↔ record ∈ records ∧ key record = wanted := by
  constructor
  · intro found
    have member := List.mem_of_find?_eq_some found
    have passes := List.find?_some found
    exact ⟨member, by simpa using passes⟩
  · intro here
    cases found : records.find? (key · = wanted) with
    | none =>
        have absent := List.find?_eq_none.mp found record here.1
        simp [here.2] at absent
    | some other =>
        have member := List.mem_of_find?_eq_some found
        have passes : key other = wanted := by
          simpa using List.find?_some found
        rw [registry.eq_of_key member here.1 (passes.trans here.2.symm)]

theorem find?_of_present (registry : Registry key records present good) (here : present wanted) :
    ∃ record,
      records.find? (key · = wanted) = some record ∧ key record = wanted ∧
        good record := by
  rcases (registry.present_iff wanted).mp here with ⟨record, member, same⟩
  exact ⟨record, registry.find?_eq_some_iff.mpr ⟨member, same⟩, same, registry.good record member⟩

theorem find?_eq_none_iff (registry : Registry key records present good) :
    records.find? (key · = wanted) = none ↔ ¬present wanted := by
  rw [registry.present_iff]
  simp

/-- Changing the record of one key. -/
theorem modify (registry : Registry key records present good) (change : Record → Record)
    (keeps : ∀ record, key record = wanted → key (change record) = wanted)
    (changed : ∀ record, good record → key record = wanted → good' (change record))
    (others : ∀ record, good record → key record ≠ wanted → good' record) :
    Registry key
      (records.map fun record =>
        if key record = wanted then change record else record)
      present good' := by
  have keys : ∀ record,
        key (if key record = wanted then change record else record) = key record := by
    intro record
    by_cases this : key record = wanted
    · rw [if_pos this, keeps record this, this]
    · rw [if_neg this]
  constructor
  · rw [List.map_map]
    have same : (key ∘ fun record =>
            if key record = wanted then change record else record) = key :=
      funext keys
    rw [same]
    exact registry.once
  · intro other
    rw [registry.present_iff]
    constructor
    · intro found
      rcases found with ⟨record, member, same⟩
      exact ⟨_, List.mem_map_of_mem member, (keys record).trans same⟩
    · intro found
      rcases found with ⟨record, member, same⟩
      rcases List.mem_map.mp member with ⟨old, oldMember, rfl⟩
      exact ⟨old, oldMember, (keys old).symm.trans same⟩
  · intro record member
    rcases List.mem_map.mp member with ⟨old, oldMember, rfl⟩
    have fine := registry.good old oldMember
    by_cases this : key old = wanted
    · rw [if_pos this]
      exact changed old fine this
    · rw [if_neg this]
      exact others old fine this

/-- Taking the record of one key out. -/
theorem filter (registry : Registry key records present good) (wanted : Key)
    (others : ∀ record, good record → key record ≠ wanted → good' record) :
    Registry key (records.filter fun record => key record ≠ wanted)
      (fun other => other ≠ wanted ∧ present other) good' := by
  constructor
  · exact registry.once.sublist (List.filter_sublist.map key)
  · intro other
    rw [registry.present_iff]
    simp only [ne_eq, decide_not, List.mem_filter, Bool.not_eq_true', decide_eq_false_iff_not]
    constructor
    · intro found
      rcases found with ⟨different, record, member, same⟩
      have kept : ¬key record = wanted := by
        rw [same]
        exact different
      exact ⟨record, ⟨member, kept⟩, same⟩
    · intro found
      rcases found with ⟨record, ⟨member, kept⟩, same⟩
      rw [same] at kept
      exact ⟨kept, record, member, same⟩
  · intro record member
    rw [List.mem_filter] at member
    exact others record (registry.good record member.1) (by simpa using member.2)

end Changes

end Registry

end CS162.Foundation
