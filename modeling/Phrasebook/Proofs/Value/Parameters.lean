import Phrasebook.Value.Layers

namespace Phrasebook

namespace ParameterSet

theorem find?_put (key key' : String) (p : Parameter) (entries : List (String × Parameter)) :
    find? key' (put key p entries) = if key' = key then some p else find? key' entries := by
  induction entries with
  | nil =>
      by_cases h : key' = key
      · simp [put, find?, h]
      · simp [put, find?, h, Ne.symm h]
  | cons entry rest ih =>
      obtain ⟨k, q⟩ := entry
      by_cases hk : k = key
      · subst hk
        by_cases h : key' = k
        · simp [put, find?, h]
        · simp [put, find?, h, Ne.symm h]
      · rw [put, if_neg hk, find?, find?, ih]
        by_cases h : key' = key
        · subst h
          simp [hk]
        · simp [h]

/-- What is set under a name is found under it, in whatever case of letters, and all else as before. -/
theorem get?_set (s : ParameterSet) (name name' : String) (p : Parameter) :
    (s.set name p).get? name' = if Text.lowered name' = Text.lowered name then some p else s.get? name' :=
  find?_put (Text.lowered name) (Text.lowered name') p s.entries

end ParameterSet

namespace Layers

theorem get?_congr_name {name name' : String} (h : Text.lowered name = Text.lowered name') (layers : Layers) :
    layers.get? name = layers.get? name' := by
  simp only [get?, ParameterSet.get?, h]

theorem get?_cons (top : ParameterSet) (layers : Layers) (name : String) :
    get? (top :: layers) name = ((top.get? name).filter fun p => !p.isNull).or (layers.get? name) := by
  rw [get?, List.findSome?_cons]
  cases (top.get? name).filter fun p => !p.isNull <;> rfl

end Layers

end Phrasebook
