import Phrasebook.Evaluation.Context

namespace Phrasebook

/-- What a lookup may do one call further down. -/
structure Deeper where
  render : Compiled → Run String
  test : Condition → Parameter → Run Bool

namespace Condition

def find (space : Option String) (key : String) : Run (String × String × Lookup) := do
  let ctx ← get
  match ctx.lookup with
  | none => throw (.unresolvedCondition (storedSpelling space key))
  | some lookup =>
    let home := space.getD ctx.space
    match lookup.store.find? home key ctx.language with
    | none => throw (.unresolvedCondition (storedSpelling space key))
    | some text =>
      if Text.trim text.toList = [] then throw (.unresolvedCondition (storedSpelling space key))
      else return (home, text, lookup)

def testStored (deeper : Deeper) (space : Option String) (key : String) (p : Parameter) :
    Run Bool := do
  let (home, text, lookup) ← find space key
  Run.within (.stored home key) do
    match lookup.dialect.condition .switchCase text with
    | .error e => throw (.bind e)
    | .ok condition => deeper.test condition p

/-- Whether a value meets a condition. Both sides of a connective are looked at. -/
def test (deeper : Deeper) (p : Parameter) : Condition → Run Bool
  | always => return true
  | connective left c right => do
    let l ← test deeper p left
    let r ← test deeper p right
    return c.holds l r
  | stored space key => testStored deeper space key p
  | arithmetic a => return a.test p.value
  | range r => return r.test p.value
  | plural category => do
    return category.test (← get).language.tag.language p.value
  | oneOf values => return values.test p.value
  | host condition => do
    match condition.test p (← get).toScene with
    | .ok b => return b
    | .error e => throw e

end Condition

end Phrasebook
