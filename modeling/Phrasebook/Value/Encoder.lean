import Phrasebook.Text.Markup

namespace Phrasebook

inductive Encoder where
  | identity
  | html
  | custom (encode : String → String)

namespace Encoder

def encode : Encoder → String → String
  | identity, s => s
  | html, s => String.ofList (Text.escapeHtml s.toList)
  | custom f, s => f s

def isIdentity : Encoder → Bool
  | identity => true
  | _ => false

end Encoder

end Phrasebook
