/-
  Liveboard/Proofs/Session/Settling.lean
  ======================================
  **Which requests an operation settles.**

  Every operation that settles anything gives one result to the open requests whose
  numbers it picks, and leaves the others where they are.  For that the numbers have to
  be in order: the current request is the latest one, and no number is used twice.
-/
import Liveboard.Session.Confirmations

namespace Liveboard.Session.Confirmations

variable {ρ α : Type} {slot : Confirmations ρ}

/-! ### Numbers -/

structure Numbered (slot : Confirmations ρ) : Prop where
  current : ∀ entry ∈ slot.current, entry.1 + 1 = slot.nextId
  displaced : ∀ entry ∈ slot.displaced, entry.1 + 1 < slot.nextId
  distinct : (slot.displaced.map (·.1)).Nodup

theorem numbered_empty (timeout : Nat) : (empty timeout : Confirmations ρ).Numbered :=
  ⟨by simp [empty], by simp [empty], List.nodup_nil⟩

theorem Numbered.lt_nextId (numbered : slot.Numbered) {entry : Nat × ρ}
    (h : entry ∈ slot.unsettled) : entry.1 < slot.nextId := by
  rcases List.mem_append.mp h with h | h
  · have last := numbered.current entry (Option.mem_toList.mp h)
    omega
  · have older := numbered.displaced entry h
    omega

/-- The request that was current is set aside with a number of its own. -/
theorem Numbered.register (numbered : slot.Numbered) (reply : ρ) :
    (slot.register reply).1.Numbered := by
  constructor
  · intro entry h
    cases h
    rfl
  · intro entry h
    have older := numbered.lt_nextId h
    exact Nat.succ_lt_succ older
  · show (slot.unsettled.map (·.1)).Nodup
    unfold unsettled
    cases same : slot.current with
    | none => exact numbered.distinct
    | some entry =>
      -- what is set aside now is newer than what was before
      refine List.nodup_cons.mpr ⟨?_, numbered.distinct⟩
      intro again
      obtain ⟨older, h, number⟩ := List.mem_map.mp again
      have last := numbered.current entry same
      have before := numbered.displaced older h
      simp only at number
      omega

/-! ### Settling -/

/-- The result goes to the open requests that are picked and to no others. -/
structure Settles (slot : Confirmations ρ) (picks : Nat → Bool) (result : Except Failure α)
    (after : Confirmations ρ × List (Settlement ρ α)) : Prop where
  current : after.1.current = slot.current.filter fun entry => !picks entry.1
  displaced : after.1.displaced = slot.displaced.filter fun entry => !picks entry.1
  nextId : after.1.nextId = slot.nextId
  timeout : after.1.timeout = slot.timeout
  settled : after.2 =
    (slot.unsettled.filter fun entry => picks entry.1).map fun entry => ⟨entry.2, result⟩

namespace Settles

variable {picks : Nat → Bool} {result : Except Failure α}
  {after : Confirmations ρ × List (Settlement ρ α)}

theorem unsettled (settles : Settles slot picks result after) :
    after.1.unsettled = slot.unsettled.filter fun entry => !picks entry.1 := by
  rw [Confirmations.unsettled, Confirmations.unsettled, settles.current, settles.displaced,
    List.filter_append]
  cases slot.current with
  | none => rfl
  | some entry => cases h : picks entry.1 <;> simp [h, Option.filter_some]

theorem numbered (settles : Settles slot picks result after) (numbered : slot.Numbered) :
    after.1.Numbered := by
  constructor
  · intro entry h
    rw [settles.current, Option.mem_def, Option.filter_eq_some_iff] at h
    rw [settles.nextId]
    exact numbered.current entry h.1
  · intro entry h
    rw [settles.displaced] at h
    rw [settles.nextId]
    exact numbered.displaced entry (List.mem_filter.mp h).1
  · rw [settles.displaced]
    exact numbered.distinct.sublist (List.filter_sublist.map _)

theorem parts (settles : Settles slot picks result after) :
    slot.unsettled.Perm
      ((slot.unsettled.filter fun entry => picks entry.1) ++ after.1.unsettled) := by
  rw [settles.unsettled]
  exact (List.filter_append_perm _ _).symm

end Settles

theorem Numbered.displaced_ne (numbered : slot.Numbered) {id : Nat}
    (latest : id + 1 = slot.nextId) : ∀ entry ∈ slot.displaced, entry.1 ≠ id := by
  intro entry h same
  have older := numbered.displaced entry h
  omega

theorem filter_eq_nil_of_ne {entries : List (Nat × ρ)} {id : Nat}
    (others : ∀ entry ∈ entries, entry.1 ≠ id) :
    entries.filter (fun entry => entry.1 == id) = [] ∧
      entries.filter (fun entry => !(entry.1 == id)) = entries := by
  constructor
  · exact List.filter_eq_nil_iff.mpr fun entry h => by simpa using others entry h
  · exact List.filter_eq_self.mpr fun entry h => by simpa using others entry h

theorem filter_eq_of_lookup {entries : List (Nat × ρ)} {id : Nat} {reply : ρ}
    (distinct : (entries.map (·.1)).Nodup) (found : entries.lookup id = some reply) :
    entries.filter (fun entry => entry.1 == id) = [(id, reply)] := by
  induction entries with
  | nil => cases found
  | cons entry entries ih =>
    obtain ⟨number, other⟩ := entry
    obtain ⟨fresh, distinct⟩ := List.nodup_cons.mp distinct
    rw [List.lookup_cons] at found
    by_cases here : id = number
    · subst here
      have rest : entries.filter (fun entry => entry.1 == id) = [] :=
        (filter_eq_nil_of_ne fun entry h same =>
          fresh (List.mem_map.mpr ⟨entry, h, same⟩)).1
      simp only [beq_self_eq_true, Option.some.injEq] at found
      subst found
      simp [rest]
    · have differs : (id == number) = false := by simpa using here
      rw [differs] at found
      rw [List.filter_cons_of_neg (by simpa using Ne.symm here)]
      exact ih distinct found

section operations

variable (numbered : slot.Numbered)
include numbered

/-- A confirmation or a refusal picks the latest request. -/
theorem settles_settle (result : Except Failure α) :
    Settles slot (fun id => id + 1 == slot.nextId) result (slot.settle result) := by
  have none : slot.displaced.filter (fun entry => entry.1 + 1 == slot.nextId) = [] := by
    refine List.filter_eq_nil_iff.mpr fun entry h => ?_
    have older := numbered.displaced entry h
    simp only [beq_iff_eq]
    omega
  have all : slot.displaced.filter (fun entry => !(entry.1 + 1 == slot.nextId)) =
      slot.displaced := by
    refine List.filter_eq_self.mpr fun entry h => ?_
    have older := numbered.displaced entry h
    simp only [Bool.not_eq_true', beq_eq_false_iff_ne]
    omega
  unfold settle
  split
  · next id reply same =>
    have latest := numbered.current (id, reply) same
    exact ⟨by simp [same, latest, Option.filter_some], all.symm, rfl, rfl,
      by simp [unsettled, same, latest, none]⟩
  · next same => exact ⟨by simp [same], all.symm, rfl, rfl, by simp [unsettled, same, none]⟩

theorem settles_expireDisplaced {id : Nat} (apart : ∀ entry ∈ slot.current, entry.1 ≠ id) :
    Settles slot (fun number => number == id) (.error (.timeout slot.timeout) : Except Failure α)
      (expire.expireDisplaced slot id) := by
  have stays : slot.current = slot.current.filter fun entry => !(entry.1 == id) := by
    cases same : slot.current with
    | none => rfl
    | some entry => simp [Option.filter_some, apart entry same]
  have picked : slot.unsettled.filter (fun entry => entry.1 == id) =
      slot.displaced.filter fun entry => entry.1 == id := by
    have none := filter_eq_nil_of_ne fun entry h => apart entry (Option.mem_toList.mp h)
    rw [unsettled, List.filter_append, none.1, List.nil_append]
  unfold expire.expireDisplaced
  split
  · next reply found =>
    refine ⟨stays, rfl, rfl, rfl, ?_⟩
    rw [picked, filter_eq_of_lookup numbered.distinct found]
    rfl
  · next missing =>
    have others : ∀ entry ∈ slot.displaced, entry.1 ≠ id := by
      intro entry h same
      have differs := List.lookup_eq_none_iff.mp missing entry h
      simp [same] at differs
    refine ⟨stays, (filter_eq_nil_of_ne others).2.symm, rfl, rfl, ?_⟩
    rw [picked, (filter_eq_nil_of_ne others).1]
    rfl

/-- A deadline picks its own request, wherever that stands. -/
theorem settles_expire (id : Nat) :
    Settles slot (fun number => number == id) (.error (.timeout slot.timeout) : Except Failure α)
      (slot.expire id) := by
  unfold expire
  split
  · next number reply same =>
    split
    · next here =>
      subst here
      have others := filter_eq_nil_of_ne
        (numbered.displaced_ne (numbered.current (number, reply) same))
      exact ⟨by simp [same, Option.filter_some], others.2.symm, rfl, rfl,
        by simp [unsettled, same, others.1]⟩
    · next apart =>
      refine settles_expireDisplaced numbered fun entry h => ?_
      rw [same] at h
      cases h
      exact apart
  · next same =>
    refine settles_expireDisplaced numbered fun entry h => ?_
    rw [same] at h
    cases h

omit numbered in
theorem settles_rejectAll (slot : Confirmations ρ) (failure : Failure) :
    Settles slot (fun _ => true) (.error failure : Except Failure α) (slot.rejectAll failure) := by
  refine ⟨?_, by simp [rejectAll], rfl, rfl, ?_⟩
  · cases slot.current <;> rfl
  · rw [List.filter_eq_self.mpr fun _ _ => rfl]
    rfl

end operations

/-! ### Results -/

theorem result_of_mem_settle {result : Except Failure α} {settlement : Settlement ρ α}
    (h : settlement ∈ (slot.settle result).2) : settlement.result = result := by
  unfold settle at h
  split at h
  · cases List.mem_singleton.mp h
    rfl
  · cases h

theorem result_of_mem_expire {id : Nat} {settlement : Settlement ρ α}
    (h : settlement ∈ (slot.expire id).2) : settlement.result = .error (.timeout slot.timeout) := by
  have displaced : settlement ∈ (expire.expireDisplaced slot id).2 →
      settlement.result = .error (.timeout slot.timeout) := by
    intro h
    unfold expire.expireDisplaced at h
    split at h
    · cases List.mem_singleton.mp h
      rfl
    · cases h
  unfold expire at h
  split at h
  · split at h
    · cases List.mem_singleton.mp h
      rfl
    · exact displaced h
  · exact displaced h

end Liveboard.Session.Confirmations
