import SceneMarkup.Analysis.Document
import SceneMarkup.Main
import SceneMarkup.Proofs.Duplicates
import SceneMarkup.Proofs.Stylesheet.Readers
import SceneMarkup.Proofs.Stylesheet.Conversion
import SceneMarkup.Proofs.Stylesheet.BlockMarks
import SceneMarkup.Proofs.Stylesheet.DeepLines
import SceneMarkup.Proofs.Stylesheet.Variables
import SceneMarkup.Proofs.Stylesheet.Rerun
import SceneMarkup.Proofs.Stylesheet.Remarks
import SceneMarkup.Proofs.Stylesheet.Numbers
import SceneMarkup.Proofs.Stylesheet.StableValues
import SceneMarkup.Proofs.Stylesheet.ColoredSizes
import SceneMarkup.Proofs.Stylesheet.Statements
import SceneMarkup.Proofs.Stylesheet.RemForms
import SceneMarkup.Proofs.Stylesheet.PropertyOrder
import SceneMarkup.Proofs.Stylesheet.PropertySets
import SceneMarkup.Proofs.Stylesheet.ConvertTwice
import SceneMarkup.Proofs.Text.Lowercase
import SceneMarkup.Proofs.Text.Words
import SceneMarkup.Proofs.Text.Wordwise
import SceneMarkup.Proofs.Markup.Readers
import SceneMarkup.Proofs.Markup.Rank
import SceneMarkup.Proofs.Markup.Kebab
import SceneMarkup.Proofs.Markup.Classes
import SceneMarkup.Proofs.Markup.Headings
import SceneMarkup.Proofs.Markup.Items
import SceneMarkup.Proofs.Markup.Progress
import SceneMarkup.Proofs.Analysis.Structure
import SceneMarkup.Proofs.Analysis.Style
import SceneMarkup.Proofs.Markup.KebabNames
import SceneMarkup.Proofs.Markup.Rerun
import SceneMarkup.Proofs.Markup.QuotedAttributes
import SceneMarkup.Proofs.Json.Numbers
import SceneMarkup.Proofs.Json.RoundTrip
import SceneMarkup.Proofs.Json.Binary
import SceneMarkup.Proofs.Json.Decimals
import SceneMarkup.Proofs.Scene.Records
import SceneMarkup.Proofs.Json.Finite
import SceneMarkup.Proofs.Scene.Canonical
import SceneMarkup.Proofs.Scene.Finite
import SceneMarkup.Proofs.Scene.RoundTrip
import SceneMarkup.Proofs.Scene.Depths
import SceneMarkup.Proofs.Json.Characters
import SceneMarkup.Proofs.Scene.InputOrder
import SceneMarkup.Proofs.Markup.ClassAttributes
import SceneMarkup.Proofs.Markup.Outline
import SceneMarkup.Proofs.Markup.KeptOutline
import SceneMarkup.Proofs.Markup.Frames
import SceneMarkup.Proofs.Markup.Buttons
import SceneMarkup.Proofs.Markup.ItemRuns
import SceneMarkup.Proofs.Markup.ItemClasses
import SceneMarkup.Proofs.Markup.Siblings
import SceneMarkup.Proofs.Stylesheet.ClassNames
import SceneMarkup.Proofs.Prompt.Session
import SceneMarkup.Proofs.Markup.IconNames
import SceneMarkup.Proofs.Markup.Mentions
import SceneMarkup.Proofs.Markup.SpeltMentions
import SceneMarkup.Proofs.Markup.KeptMentions
import SceneMarkup.Proofs.Markup.WrappedMentions
import SceneMarkup.Proofs.Prompt.AcceptedMarkup
import SceneMarkup.Proofs.Prompt.SelectionBlock
import SceneMarkup.Proofs.Markup.RewrittenTags
import SceneMarkup.Proofs.Markup.FirstHeading
import SceneMarkup.Proofs.Markup.Targets
import SceneMarkup.Proofs.Markup.AttributeTexts
import SceneMarkup.Proofs.Markup.IconClasses
import SceneMarkup.Proofs.Markup.AttributeTails
import SceneMarkup.Proofs.Markup.HiddenIcons
import SceneMarkup.Proofs.Stylesheet.ConvertedBorders
import SceneMarkup.Proofs.Markup.WrapperClass
import SceneMarkup.Proofs.Prompt.FencedCode
import SceneMarkup.Proofs.Markup.WrittenAttributes
import SceneMarkup.Proofs.Scene.Walks
import SceneMarkup.Proofs.Scene.RestatedDepths
import SceneMarkup.Proofs.Markup.InteractiveClasses
