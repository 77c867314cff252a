import Phrasebook.Proofs.Evaluation.Relation

namespace Phrasebook.Run

variable {α β : Type} {I J : Context → Prop} {R R' : α → Prop} {S : β → Prop}

/-- From every context in `I` two runs do the same, stay in `I` and return what is in `R`. -/
def Agree (I : Context → Prop) (R : α → Prop) (m m' : Run α) : Prop :=
  ∀ ctx, I ctx → m ctx = m' ctx ∧ I (m ctx).2 ∧ ∀ a, (m ctx).1 = .ok a → R a

abbrev Ensures (I : Context → Prop) (R : α → Prop) (m : Run α) : Prop :=
  Agree I R m m

/-- To agree is to be related where everything is related to itself alone. -/
theorem agree_iff_related {m m' : Run α} :
    Agree I R m m' ↔ Related (Diagonal I) .equal (Diagonal R) m m' := by
  constructor
  · rintro h ctx _ ⟨rfl, hctx⟩
    obtain ⟨heq, hafter, hR⟩ := h ctx hctx
    rw [← heq]
    refine .inr ⟨⟨rfl, hafter⟩, ?_⟩
    cases hresult : (m ctx).1 with
    | ok a => exact .ok ⟨rfl, hR a hresult⟩
    | error e => exact .error rfl
  · intro h ctx hctx
    obtain ⟨⟨hsame, hafter⟩, hresult⟩ := h.of_not_cut (fun _ => id) ⟨rfl, hctx⟩
    rcases hm : m ctx with ⟨result, after⟩
    rcases hm' : m' ctx with ⟨result', after'⟩
    rw [hm, hm'] at hresult hsame
    rw [hm] at hafter
    dsimp only at hsame
    subst hsame
    cases hresult with
    | ok ha =>
        refine ⟨by rw [ha.1], hafter, ?_⟩
        rintro _ ⟨⟩
        exact ha.2
    | error he =>
        refine ⟨by rw [he], hafter, ?_⟩
        rintro _ ⟨⟩

theorem ensures_pure {a : α} (ha : R a) : Ensures I R (pure a) :=
  agree_iff_related.mpr (related_pure ⟨rfl, ha⟩)

theorem ensures_throw (e : EvalError) : Ensures I R (throw e) :=
  agree_iff_related.mpr (related_throw fun _ _ _ => rfl)

theorem agree_get_bind {f f' : Context → Run β} (hf : ∀ ctx, I ctx → Agree I S (f ctx) (f' ctx)) :
    Agree I S (get >>= f) (get >>= f') := by
  intro ctx hctx
  exact hf ctx hctx ctx hctx

theorem Agree.trans {m m' m'' : Run α} (h : Agree I R m m') (h' : Agree I R' m' m'') :
    Agree I R m m'' := by
  intro ctx hctx
  obtain ⟨heq, hafter, hr⟩ := h ctx hctx
  exact ⟨heq.trans (h' ctx hctx).1, hafter, hr⟩

theorem Agree.symm {m m' : Run α} (h : Agree I R m m') : Agree I R m' m := by
  intro ctx hctx
  obtain ⟨heq, hafter, hr⟩ := h ctx hctx
  rw [← heq]
  exact ⟨rfl, hafter, hr⟩

theorem Agree.asChild {m m' : Run α} {space : String} {parameters : ParameterSet}
    (h : Agree J R m m') (henter : ∀ ctx, I ctx → J { ctx with space, layers := [parameters] })
    (hleave : ∀ ctx after, I ctx → J after → I { ctx with journal := after.journal }) :
    Agree I R (Run.asChild space parameters m) (Run.asChild space parameters m') := by
  refine agree_iff_related.mpr ((agree_iff_related.mp h).asChild (fun _ _ hctx => hctx.map henter) ?_)
  rintro ctx _ after _ ⟨rfl, hctx⟩ ⟨rfl, hafter⟩
  exact ⟨rfl, hleave ctx after hctx hafter⟩

end Phrasebook.Run
