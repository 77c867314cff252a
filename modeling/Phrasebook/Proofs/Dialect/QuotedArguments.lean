import Phrasebook.Proofs.Dialect.Binding
import Phrasebook.Proofs.Text.Blank
import Phrasebook.Proofs.Text.Pieces

namespace Phrasebook

open Text

def inQuotes (t : String) : String :=
  "\"" ++ t ++ "\""

namespace Dialect

theorem argument_inQuotes (d : Dialect) (t : String) : d.argument (inQuotes t).toList = .ok (.literal t) := by
  have hchars : (inQuotes t).toList = '"' :: (t.toList ++ ['"']) := by simp [inQuotes]
  have htrim : trim ('"' :: (t.toList ++ ['"'])) = '"' :: (t.toList ++ ['"']) := by
    have hlast : ('"' :: (t.toList ++ ['"'])).getLast? = some '"' := by
      rw [← List.cons_append, List.getLast?_concat]
    rw [trim, trimStart_of_head?, trimEnd_of_getLast?]
    · rw [hlast]
      rintro _ ⟨⟩
      rfl
    · rintro _ ⟨⟩
      rfl
  have hquoted : quoted? ('"' :: (t.toList ++ ['"'])) = some t.toList := by
    obtain ⟨c, rest, hrest⟩ := List.exists_cons_of_ne_nil (l := t.toList ++ ['"']) (by simp)
    have hlast : (c :: rest).getLast? = some '"' := by rw [← hrest]; simp
    have hinner : (c :: rest).dropLast = t.toList := by rw [← hrest]; simp
    rw [hrest, quoted?, hlast, hinner]
    rfl
  rw [argument, hchars]
  dsimp only
  rw [htrim, hquoted]
  simp

theorem standard_evaluator_lookup (site : Site) (key format : String) (arguments : Option String) :
    standard.evaluator site ⟨"@" ++ key, format, arguments⟩ =
      (standard.arguments arguments).map (.lookup (lookupKey key.toList)) := by
  have hname : ("@" ++ key).toList = '@' :: key.toList := by simp
  have hrules : standard.evaluators = [.lookup, .property, .direct] := rfl
  rw [Dialect.evaluator, hrules, evaluatorFrom, acceptEvaluator?, lookup?, hname]
  cases standard.arguments arguments <;> rfl

theorem arguments_inQuotes_iff (d : Dialect) {texts : List String} (hne : texts ≠ []) :
    d.arguments (joined "," (texts.map inQuotes)) = .ok (texts.map .literal) ↔ ∀ t ∈ texts, ',' ∉ t.toList := by
  have hcomma (t : String) : ',' ∈ (inQuotes t).toList ↔ ',' ∈ t.toList := by simp [inQuotes]
  have hpieces : (joined "," (texts.map inQuotes)).toList =
      [','].intercalate (texts.map fun t => (inQuotes t).toList) := by
    rw [toList_joined, List.map_map]
    rfl
  have hne' : texts.map (fun t => (inQuotes t).toList) ≠ [] := by simpa using hne
  rw [arguments, hpieces]
  constructor
  · intro h t ht
    -- every comma is a separator, and there are as many arguments as texts only if the texts have none
    have hlength := (mapM_eq_ok_iff.mp h).length_eq
    have hcount : ([','].intercalate _).count ',' + 1 = _ := count_intercalate hne'
    rw [length_splitOn, hcount, List.length_map, List.length_map] at hlength
    have hzero : ((texts.map fun t => (inQuotes t).toList).flatten).count ',' = 0 := by omega
    rw [← hcomma]
    exact fun hmem => List.count_eq_zero.mp hzero
      (List.mem_flatten.mpr ⟨_, List.mem_map_of_mem ht, hmem⟩)
  · intro h
    rw [splitOn_eq, List.splitOn_intercalate]
    · rw [mapM_eq_ok_iff, List.forall₂_map_left_iff, List.forall₂_map_right_iff, List.forall₂_same]
      exact fun t _ => d.argument_inQuotes t
    · exact List.forall_mem_map.mpr fun t ht => (not_congr (hcomma t)).mpr (h t ht)
    · exact hne'

/-- Texts in quotes are passed as they are exactly if none of them has a comma in it. -/
theorem standard_evaluator_quoted_iff (site : Site) (key format first : String) (rest : List String) :
    standard.evaluator site ⟨"@" ++ key, format, some (joined "," ((first :: rest).map inQuotes))⟩ =
        .ok (.lookup (lookupKey key.toList) ((first :: rest).map .literal)) ↔
      ∀ t ∈ first :: rest, ',' ∉ t.toList := by
  rw [standard_evaluator_lookup, map_eq_ok_iff, ← standard.arguments_inQuotes_iff (List.cons_ne_nil first rest)]
  constructor
  · rintro ⟨arguments, harguments, hlookup⟩
    cases hlookup
    exact harguments
  · intro h
    exact ⟨_, h, rfl⟩

/-- A text in quotes that has a comma in it becomes the names of two parameters. -/
theorem standard_evaluator_quoted_comma :
    standard.evaluator .parameter ⟨"@k", "", some "\"a,b\""⟩ =
      .ok (.lookup (.fixed "k") [.parameter "\"a" none, .parameter "b\"" none]) := by
  rfl

end Dialect

end Phrasebook
