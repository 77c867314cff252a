import Phrasebook.Evaluation.Error
import Phrasebook.Language.Basic
import Phrasebook.Value.Layers

namespace Phrasebook

structure Scene where
  language : Language
  /-- Offset from UTC, in seconds, at which moments are told. -/
  zone : Int
  /-- The namespace of keys that name none. -/
  space : String
  layers : Layers
  encoder : Encoder
  maxDepth : Nat
  /-- Lookups in progress, outermost first. -/
  calls : List Call

/-- What the formatters and the wrappings of a host do. Parameters carry them only by what tells them
apart, since they are given parameters. -/
structure Host where
  format : HostFormatter → Parameter → Scene → Except FormatError String :=
    fun f _ _ => .error (.invalidFormat f.kind)
  wrap : (name : String) → Value → (formatted : String) → Encoder → String :=
    fun _ _ formatted encoder => encoder.encode formatted

end Phrasebook
