import Mathlib.Data.List.Induction
import Mathlib.Data.List.Nodup

namespace Phrasebook

variable {α : Type} [BEq α] [LawfulBEq α]

theorem eraseDups_of_nodup {l : List α} (h : l.Nodup) : l.eraseDups = l := by
  induction l with
  | nil => rfl
  | cons x l ih =>
      obtain ⟨hnew, hrest⟩ := List.nodup_cons.mp h
      have hfilter : l.filter (fun y => !y == x) = l :=
        List.filter_eq_self.mpr fun y hy => by simpa using fun heq : y = x => hnew (heq ▸ hy)
      rw [List.eraseDups_cons, hfilter, ih hrest]

theorem eraseDups_append_singleton (l : List α) (x : α) :
    (l ++ [x]).eraseDups = if l.contains x then l.eraseDups else l.eraseDups ++ [x] := by
  rw [List.eraseDups_append]
  by_cases hx : x ∈ l
  · simp [hx, List.removeAll]
  · simp [hx, List.removeAll, List.eraseDups_cons]

theorem nodup_eraseDups (l : List α) : l.eraseDups.Nodup := by
  induction l using List.reverseRecOn with
  | nil => simp
  | append_singleton l x ih =>
      rw [eraseDups_append_singleton]
      split
      · exact ih
      next hx =>
        refine List.nodup_append.mpr ⟨ih, List.nodup_singleton x, ?_⟩
        rintro y hy _ hx' rfl
        rw [List.mem_singleton.mp hx', List.mem_eraseDups] at hy
        exact hx (List.contains_iff_mem.mpr hy)

end Phrasebook
