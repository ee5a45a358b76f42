import RuledMarkup.Inspect
import RuledMarkup.Main
import RuledMarkup.Proofs.Block.BuiltIn
import RuledMarkup.Proofs.Block.NextLine
import RuledMarkup.Proofs.Block.QuoteGrammar
import RuledMarkup.Proofs.Block.Quotes
import RuledMarkup.Proofs.Code.Words
import RuledMarkup.Proofs.Inline.RoundTrip
import RuledMarkup.Proofs.Parse.Progress
import RuledMarkup.Proofs.Parse.States
import RuledMarkup.Proofs.Parse.Tiling
import RuledMarkup.Proofs.Viewer.Foreground
import RuledMarkup.Proofs.Viewer.LineStarts
import RuledMarkup.Proofs.Viewer.Text
import RuledMarkup.Theme.Writer
import RuledMarkup.Viewer.Screen
import RuledMarkup.Proofs.Parse.Faults
import RuledMarkup.Proofs.Parse.LaterRules
import RuledMarkup.Proofs.Parse.Following
import RuledMarkup.Proofs.Block.ClassedTitles
import RuledMarkup.Proofs.Inline.Escapes
import RuledMarkup.Proofs.Viewer.StyleLayers
import RuledMarkup.Proofs.Pattern.Lookahead
import RuledMarkup.Proofs.Theme.RoundTrip
import RuledMarkup.Proofs.Code.Literals
import RuledMarkup.Proofs.Code.LineComments
import RuledMarkup.Proofs.Node.Outline
import RuledMarkup.Proofs.CommandLine.Arguments
import RuledMarkup.Proofs.Parse.Insertion
import RuledMarkup.Proofs.Node.Walks
import RuledMarkup.Proofs.Pattern.GroupRanges
