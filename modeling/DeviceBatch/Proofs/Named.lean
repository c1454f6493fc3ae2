import DeviceBatch.Named
import Mathlib.Data.List.Nodup

/-!
# Named things

Where no two things have the same name, to look a name up is to be a member. `put` keeps names
apart, and puts what is new at the end.
-/

namespace DeviceBatch

namespace Named

variable {α : Type} {things : Named α} {name : String} {a : α}

theorem remove_eq_self (h : name ∉ things.map Prod.fst) : things.remove name = things := by
  refine List.filter_eq_self.mpr fun p hp => ?_
  simpa using fun heq : p.1 = name => h (List.mem_map.mpr ⟨p, hp, heq⟩)

/-- A thing and the rest of the things. -/
theorem perm_remove (h : things.lookup name = some a) (hn : (things.map Prod.fst).Nodup) :
    things.Perm ((name, a) :: things.remove name) := by
  obtain ⟨l, r, rfl, -⟩ := List.lookup_eq_some_iff.mp h
  simp only [List.map_append, List.map_cons, List.nodup_append, List.nodup_cons] at hn
  have hl : remove l name = l := remove_eq_self fun hmem =>
    hn.2.2 name hmem name List.mem_cons_self rfl
  have hr : remove r name = r := remove_eq_self hn.2.1.1
  have hrem : remove (l ++ (name, a) :: r) name = l ++ r := by
    unfold remove at hl hr ⊢
    rw [List.filter_append, List.filter_cons_of_neg (by simp), hl, hr]
  rw [hrem]
  exact List.perm_middle

theorem notMem_remove : name ∉ (things.remove name).map Prod.fst := by
  intro hmem
  obtain ⟨p, hp, heq⟩ := List.mem_map.mp hmem
  exact of_decide_eq_true (List.mem_filter.mp hp).2 heq

theorem mem_put {p : String × α} (h : p ∈ things.put name a) : p ∈ things ∨ p = (name, a) :=
  (List.mem_append.mp h).imp (fun h => (List.mem_filter.mp h).1) List.mem_singleton.mp

theorem nodup_put (hn : (things.map Prod.fst).Nodup) (name : String) (a : α) :
    ((things.put name a).map Prod.fst).Nodup := by
  unfold put
  rw [List.map_append, List.nodup_append]
  refine ⟨(List.filter_sublist.map _).nodup hn, List.nodup_singleton _, fun x hx y hy hxy => ?_⟩
  rw [List.map_singleton, List.mem_singleton] at hy
  exact notMem_remove (hy ▸ hxy ▸ hx)

theorem lookup_of_find (h : things.find name = .ok a) : things.lookup name = some a := by
  unfold find at h
  split at h
  · next heq => cases h; exact heq
  · cases h

theorem mem_of_lookup (h : things.lookup name = some a) : (name, a) ∈ things := by
  obtain ⟨l, r, rfl, -⟩ := List.lookup_eq_some_iff.mp h
  exact List.mem_append_right _ List.mem_cons_self

/-- If names stand for one thing each, what is there is found. -/
theorem lookup_of_mem (hn : (things.map Prod.fst).Nodup) (h : (name, a) ∈ things) :
    things.lookup name = some a := by
  cases hl : things.lookup name with
  | none => simpa using List.lookup_eq_none_iff.mp hl _ h
  | some a' =>
    rcases List.mem_cons.mp ((perm_remove hl hn).mem_iff.mp h) with heq | hmem
    · cases heq
      rfl
    · exact absurd (List.mem_map.mpr ⟨_, hmem, rfl⟩) notMem_remove

end Named

end DeviceBatch
