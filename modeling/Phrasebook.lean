import Phrasebook.Main
import Phrasebook.Proofs.Evaluation.Cycles
import Phrasebook.Proofs.Evaluation.HtmlOutput
import Phrasebook.Proofs.Evaluation.TagOutput
import Phrasebook.Proofs.Evaluation.PrintedOutput
import Phrasebook.Proofs.Pattern.NullMark
import Phrasebook.Proofs.Pattern.ViablePrefix
import Phrasebook.Proofs.Script.Agreement
import Phrasebook.Proofs.Script.Lexical
import Phrasebook.Proofs.Script.Stops
import Phrasebook.Proofs.Script.TextManager
import Phrasebook.Proofs.Dialect.Conditions
import Phrasebook.Proofs.Evaluation.EncodedOnce
import Phrasebook.Proofs.Evaluation.VisibleLayers
import Phrasebook.Proofs.Value.PercentsApart
import Phrasebook.Proofs.Pattern.Characters
import Phrasebook.Proofs.Evaluation.Restored
import Phrasebook.Proofs.Dialect.Hosts
import Phrasebook.Proofs.Evaluation.DepthLimit
import Phrasebook.Proofs.Value.Parameters
import Phrasebook.Proofs.Evaluation.CurrentElement
import Phrasebook.Proofs.Evaluation.Arguments
import Phrasebook.Proofs.Dialect.SwitchCases
import Phrasebook.Proofs.Text.Words
import Phrasebook.Proofs.Condition.Letters
import Phrasebook.Proofs.Condition.Padding
import Phrasebook.Proofs.Condition.Ranges
import Phrasebook.Proofs.Dialect.JoinedRanges
import Phrasebook.Proofs.Dialect.Rejections
import Phrasebook.Proofs.Pattern.Composition
import Phrasebook.Proofs.Pattern.OpenCase
import Phrasebook.Proofs.Text.Tags
import Phrasebook.Proofs.Pattern.StopPlaces
import Phrasebook.Proofs.Dialect.ErrorPlaces
import Phrasebook.Proofs.Calendar.SpanForms
import Phrasebook.Proofs.Format.SpanTexts
import Phrasebook.Proofs.Format.UniversalOrder
import Phrasebook.Proofs.Format.IntegerDigits
import Phrasebook.Proofs.Language.Chain
import Phrasebook.Proofs.Language.Parent
import Phrasebook.Proofs.Dialect.QuotedArguments
import Phrasebook.Proofs.Format.CustomDigits
import Phrasebook.Proofs.Condition.ArithmeticSpellings
import Phrasebook.Proofs.Evaluation.UnknownKeys
import Phrasebook.Proofs.Format.Sections
