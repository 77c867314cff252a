import Mathlib.Data.List.Induction
import Phrasebook.Evaluation.Error
import Phrasebook.Store

namespace Phrasebook

namespace Slot

theorem before_iff {s t : Slot} : s.before t = true ↔
    s.space < t.space ∨ s.space = t.space ∧ (s.key < t.key ∨ s.key = t.key ∧ s.tag < t.tag) := by
  simp only [before, Bool.or_eq_true, Bool.and_eq_true, decide_eq_true_eq, beq_iff_eq]

theorem before_trans {s t u : Slot} (h : s.before t = true) (h' : t.before u = true) : s.before u = true := by
  rw [before_iff] at h h' ⊢
  rcases h with h | ⟨hspace, h⟩
  · rcases h' with h' | ⟨hspace', -⟩
    · exact .inl (String.lt_trans h h')
    · exact .inl (hspace' ▸ h)
  · rcases h' with h' | ⟨hspace', h'⟩
    · exact .inl (hspace ▸ h')
    · refine .inr ⟨hspace.trans hspace', ?_⟩
      rcases h with h | ⟨hkey, h⟩
      · rcases h' with h' | ⟨hkey', -⟩
        · exact .inl (String.lt_trans h h')
        · exact .inl (hkey' ▸ h)
      · rcases h' with h' | ⟨hkey', h'⟩
        · exact .inl (hkey ▸ h')
        · exact .inr ⟨hkey.trans hkey', String.lt_trans h h'⟩

theorem before_of_not_before {s t : Slot} (hne : s ≠ t) (h : ¬ s.before t = true) : t.before s = true := by
  rw [before_iff] at h ⊢
  rcases Std.lt_trichotomy s.space t.space with hspace | hspace | hspace
  · exact absurd (.inl hspace) h
  · rcases Std.lt_trichotomy s.key t.key with hkey | hkey | hkey
    · exact absurd (.inr ⟨hspace, .inl hkey⟩) h
    · rcases Std.lt_trichotomy s.tag t.tag with htag | htag | htag
      · exact absurd (.inr ⟨hspace, .inr ⟨hkey, htag⟩⟩) h
      · refine absurd ?_ hne
        cases s
        cases t
        rw [Slot.mk.injEq]
        exact ⟨hspace, hkey, htag⟩
      · exact .inr ⟨hspace.symm, .inr ⟨hkey.symm, htag⟩⟩
    · exact .inr ⟨hspace.symm, .inl hkey⟩
  · exact .inl hspace

end Slot

namespace Store

theorem exists_slot_of_find? {store : Store} {space key pattern : String} {language : Language}
    (h : store.find? space key language = some pattern) :
    ∃ tag, (⟨space, key, tag⟩, pattern) ∈ store.entries := by
  obtain ⟨tag, -, hget⟩ := List.exists_of_findSome?_eq_some h
  obtain ⟨⟨slot, _⟩, hentry, rfl⟩ := Option.map_eq_some_iff.mp hget
  have hslot : slot = ⟨space, key, tag⟩ := by simpa using List.find?_some hentry
  exact ⟨tag, hslot ▸ List.mem_of_find?_eq_some hentry⟩

theorem find?_put (slot slot' : Slot) (pattern : String) (entries : List (Slot × String)) :
    ((put slot pattern entries).find? fun entry => entry.1 = slot').map Prod.snd =
      if slot' = slot then some pattern else (entries.find? fun entry => entry.1 = slot').map Prod.snd := by
  induction entries with
  | nil =>
      by_cases h : slot' = slot
      · simp [put, h]
      · simp [put, h, Ne.symm h]
  | cons entry rest ih =>
      obtain ⟨s, p⟩ := entry
      by_cases hs : slot = s
      · subst hs
        by_cases h : slot' = slot
        · simp [put, h]
        · simp [put, h, Ne.symm h]
      · by_cases h : slot' = slot
        · subst h
          by_cases hb : slot'.before s
          · simp [put, hs, hb]
          · simpa [put, hs, hb, Ne.symm hs] using ih
        · by_cases hb : slot.before s
          · simp [put, hs, hb, h, Ne.symm h]
          · rw [if_neg h] at ih ⊢
            by_cases h' : s = slot'
            · subst h'
              simp [put, hs, hb]
            · simpa [put, hs, hb, h'] using ih

theorem get?_insert (store : Store) (space key tag pattern space' key' tag' : String) :
    (store.insert space key tag pattern).get? space' key' tag' =
      if (⟨space', key', tag'⟩ : Slot) = ⟨space, key, tag⟩ then some pattern else store.get? space' key' tag' :=
  find?_put ⟨space, key, tag⟩ ⟨space', key', tag'⟩ pattern store.entries

/-- The store that is left when patterns have been put into slots one after another. -/
def ofWrites (writes : List (Slot × String)) : Store :=
  writes.foldl (fun store w => store.insert w.1.space w.1.key w.1.tag w.2) .empty

/-- A pattern was put into a slot and nothing was put there after it. -/
def Holds (writes : List (Slot × String)) (slot : Slot) (pattern : String) : Prop :=
  ∃ earlier later, writes = earlier ++ (slot, pattern) :: later ∧ ∀ w ∈ later, w.1 ≠ slot

section

variable {writes : List (Slot × String)} {space key tag pattern : String}

theorem get?_ofWrites (writes : List (Slot × String)) (space key tag : String) :
    (ofWrites writes).get? space key tag =
      (writes.reverse.find? fun w => w.1 = ⟨space, key, tag⟩).map Prod.snd := by
  induction writes using List.reverseRecOn with
  | nil => rfl
  | append_singleton writes w ih =>
      rw [ofWrites] at ih ⊢
      rw [List.foldl_append, List.foldl_cons, List.foldl_nil, get?_insert, ih, List.reverse_append,
        List.reverse_singleton, List.singleton_append, List.find?_cons]
      by_cases h : w.1 = ⟨space, key, tag⟩
      · simp [h]
      · simp [h, Ne.symm h]

theorem get?_ofWrites_eq_none_iff :
    (ofWrites writes).get? space key tag = none ↔ ∀ w ∈ writes, w.1 ≠ ⟨space, key, tag⟩ := by
  simp [get?_ofWrites]

theorem get?_ofWrites_eq_some_iff :
    (ofWrites writes).get? space key tag = some pattern ↔ Holds writes ⟨space, key, tag⟩ pattern := by
  rw [get?_ofWrites, Option.map_eq_some_iff]
  constructor
  · rintro ⟨⟨slot, _⟩, hfind, rfl⟩
    obtain ⟨hslot, later, earlier, hwrites, hlater⟩ := List.find?_eq_some_iff_append.mp hfind
    obtain rfl := of_decide_eq_true hslot
    refine ⟨earlier.reverse, later.reverse, ?_, ?_⟩
    · rw [← List.reverse_reverse writes, hwrites]
      simp
    · intro w hw
      simpa using hlater w (List.mem_reverse.mp hw)
  · rintro ⟨earlier, later, rfl, hlater⟩
    refine ⟨(⟨space, key, tag⟩, pattern), List.find?_eq_some_iff_append.mpr
      ⟨decide_eq_true rfl, later.reverse, earlier.reverse, ?_, ?_⟩, rfl⟩
    · simp
    · intro w hw
      simpa using hlater w (List.mem_reverse.mp hw)

end

theorem mem_dropRepeats {key : String} {keys : List String} : key ∈ dropRepeats keys ↔ key ∈ keys := by
  fun_induction dropRepeats keys with
  | case1 | case2 => rfl
  | case3 k rest ih => simpa using ih
  | case4 k next rest _ ih => rw [List.mem_cons, ih, ← List.mem_cons]

theorem pairwise_lt_dropRepeats {keys : List String} (h : keys.Pairwise (· ≤ ·)) :
    (dropRepeats keys).Pairwise (· < ·) := by
  fun_induction dropRepeats keys with
  | case1 => exact .nil
  | case2 k => exact List.pairwise_singleton _ k
  | case3 k rest ih => exact ih (List.pairwise_cons.mp h).2
  | case4 k next rest hne ih =>
      obtain ⟨hk, hrest⟩ := List.pairwise_cons.mp h
      have hnext : k < next := Std.lt_of_le_of_ne (hk next List.mem_cons_self) hne
      refine List.pairwise_cons.mpr ⟨fun key hkey => ?_, ih hrest⟩
      rcases List.mem_cons.mp (mem_dropRepeats.mp hkey) with rfl | hkey
      · exact hnext
      · exact Std.lt_of_lt_of_le hnext ((List.pairwise_cons.mp hrest).1 key hkey)

theorem mem_keys_iff {store : Store} {space key : String} :
    key ∈ store.keys space ↔ ∃ entry ∈ store.entries, entry.1.space = space ∧ entry.1.key = key := by
  simp only [keys, mem_dropRepeats, List.mem_map, List.mem_filter, decide_eq_true_eq, and_assoc]

theorem mem_keys_ofWrites_iff {writes : List (Slot × String)} {space key : String} :
    key ∈ (ofWrites writes).keys space ↔ ∃ w ∈ writes, w.1.space = space ∧ w.1.key = key := by
  have hslot (slot : Slot) : (∃ entry ∈ (ofWrites writes).entries, entry.1 = slot) ↔ ∃ w ∈ writes, w.1 = slot := by
    have hnone : (ofWrites writes).get? slot.space slot.key slot.tag = none ↔ ∀ w ∈ writes, w.1 ≠ slot :=
      get?_ofWrites_eq_none_iff
    rw [get?, Option.map_eq_none_iff, List.find?_eq_none] at hnone
    simpa using not_congr hnone
  rw [mem_keys_iff]
  constructor
  · rintro ⟨entry, hentry, rfl, rfl⟩
    obtain ⟨w, hw, heq⟩ := (hslot entry.1).mp ⟨entry, hentry, rfl⟩
    exact ⟨w, hw, by rw [heq], by rw [heq]⟩
  · rintro ⟨w, hw, rfl, rfl⟩
    obtain ⟨entry, hentry, heq⟩ := (hslot w.1).mpr ⟨w, hw, rfl⟩
    exact ⟨entry, hentry, by rw [heq], by rw [heq]⟩

def InOrder (entries : List (Slot × String)) : Prop :=
  entries.Pairwise fun entry entry' => entry.1.before entry'.1 = true

theorem eq_or_mem_of_mem_put {slot : Slot} {pattern : String} {entries : List (Slot × String)}
    {entry : Slot × String} (h : entry ∈ put slot pattern entries) : entry = (slot, pattern) ∨ entry ∈ entries := by
  induction entries with
  | nil => exact .inl (List.mem_singleton.mp h)
  | cons e rest ih =>
      rw [put] at h
      split at h
      · exact (List.mem_cons.mp h).imp_right (List.mem_cons_of_mem e)
      · split at h
        · exact List.mem_cons.mp h
        · rcases List.mem_cons.mp h with rfl | h
          · exact .inr List.mem_cons_self
          · exact (ih h).imp_right (List.mem_cons_of_mem e)

theorem InOrder.put {entries : List (Slot × String)} (h : InOrder entries) (slot : Slot) (pattern : String) :
    InOrder (Store.put slot pattern entries) := by
  induction entries with
  | nil => exact List.pairwise_singleton _ _
  | cons e rest ih =>
      obtain ⟨hfirst, hrest⟩ := List.pairwise_cons.mp h
      rw [Store.put]
      split
      next heq => exact List.pairwise_cons.mpr ⟨fun entry hentry => heq ▸ hfirst entry hentry, hrest⟩
      next hne =>
        split
        next hbefore =>
          refine List.pairwise_cons.mpr ⟨List.forall_mem_cons.mpr ⟨hbefore, fun entry hentry => ?_⟩, h⟩
          exact Slot.before_trans hbefore (hfirst entry hentry)
        next hbefore =>
          refine List.pairwise_cons.mpr ⟨fun entry hentry => ?_, ih hrest⟩
          rcases eq_or_mem_of_mem_put hentry with rfl | hentry
          · exact Slot.before_of_not_before hne hbefore
          · exact hfirst entry hentry

theorem inOrder_ofWrites (writes : List (Slot × String)) : InOrder (ofWrites writes).entries := by
  induction writes using List.reverseRecOn with
  | nil => exact .nil
  | append_singleton writes w ih =>
      rw [ofWrites, List.foldl_append]
      exact ih.put w.1 w.2

theorem pairwise_lt_keys {store : Store} (h : InOrder store.entries) (space : String) :
    (store.keys space).Pairwise (· < ·) := by
  refine pairwise_lt_dropRepeats (List.pairwise_map.mpr (List.pairwise_filter.mpr
    (h.imp fun {entry entry'} hbefore hspace hspace' => ?_)))
  rcases Slot.before_iff.mp hbefore with hlt | ⟨-, hkey | ⟨hkey, -⟩⟩
  · have hsame : entry.1.space = entry'.1.space :=
      (of_decide_eq_true hspace).trans (of_decide_eq_true hspace').symm
    exact absurd (hsame ▸ hlt) (String.lt_irrefl _)
  · exact Std.le_of_lt hkey
  · exact Std.le_of_eq hkey

def NamesApart (store : Store) : Prop :=
  ∀ entry ∈ store.entries, ∀ entry' ∈ store.entries,
    (Call.stored entry.1.space entry.1.key).name = (Call.stored entry'.1.space entry'.1.key).name →
    entry.1.space = entry'.1.space ∧ entry.1.key = entry'.1.key

theorem eq_of_append_slash {s t k l : List Char} (hs : '/' ∉ s) (ht : '/' ∉ t)
    (h : s ++ '/' :: k = t ++ '/' :: l) : s = t ∧ k = l := by
  induction s generalizing t with
  | nil =>
      cases t with
      | nil => exact ⟨rfl, (List.cons.inj h).2⟩
      | cons c t => exact absurd ((List.cons.inj h).1 ▸ List.mem_cons_self) ht
  | cons c s ih =>
      cases t with
      | nil => exact absurd ((List.cons.inj h).1 ▸ List.mem_cons_self) hs
      | cons c' t =>
          obtain ⟨rfl, htail⟩ := List.cons.inj h
          rw [List.mem_cons, not_or] at hs ht
          obtain ⟨rfl, rfl⟩ := ih hs.2 ht.2 htail
          exact ⟨rfl, rfl⟩

/-- Where no namespace has a slash in it, a name tells namespace and key. -/
theorem namesApart_of_no_slash {store : Store} (h : ∀ entry ∈ store.entries, '/' ∉ entry.1.space.toList) :
    store.NamesApart := by
  intro entry hentry entry' hentry' hname
  have hchars := congrArg String.toList hname
  simp only [Call.name, String.toList_append] at hchars
  obtain ⟨hspace, hkey⟩ := eq_of_append_slash (h entry hentry) (h entry' hentry') (by simpa using hchars)
  exact ⟨String.toList_inj.mp hspace, String.toList_inj.mp hkey⟩

end Store

end Phrasebook
