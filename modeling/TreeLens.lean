import TreeLens.Main
import TreeLens.Parsing.Bump
import TreeLens.Proofs.Session.Hovering
import TreeLens.Proofs.Source.Offsets
import TreeLens.Proofs.Tree.Spans
import TreeLens.Proofs.View.Layout
import TreeLens.View.Builder
import TreeLens.Proofs.View.Regions
import TreeLens.Proofs.View.Toggling
import TreeLens.Proofs.Json.Everywhere
import TreeLens.Proofs.Tree.Leaves
import TreeLens.Proofs.View.Nesting
import TreeLens.Proofs.Session.Polling
import TreeLens.Proofs.Json.Keys
import TreeLens.Proofs.Query.Locations
import TreeLens.Proofs.Tree.Data
import TreeLens.Proofs.Session.Copying
import TreeLens.Proofs.Session.Attempts
import TreeLens.Proofs.Session.Failing
import TreeLens.Proofs.Session.Presenting
import TreeLens.Proofs.Session.Marking
import TreeLens.Proofs.Parsing.Buffers
import TreeLens.Proofs.Program.Replay
import TreeLens.Proofs.Session.Asking
import TreeLens.Proofs.Tree.Checks
import TreeLens.Proofs.Tree.Sound
import TreeLens.Proofs.View.Index
import TreeLens.Proofs.View.Frames
import TreeLens.Proofs.View.Crossing
import TreeLens.Proofs.View.Visibility
import TreeLens.Proofs.View.Tokens
import TreeLens.Proofs.Tree.Layers
import TreeLens.Proofs.Tree.Once
import TreeLens.Proofs.Tree.Reordering
import TreeLens.Proofs.View.Targets
import TreeLens.Proofs.Source.Ranges
import TreeLens.Proofs.Tree.Restoring
import TreeLens.Proofs.Json.Quoting
import TreeLens.Proofs.Parsing.Echo
import TreeLens.Proofs.Text.Escaping
import TreeLens.Proofs.View.Colours
import TreeLens.Proofs.Widget.Forest
import TreeLens.Proofs.Program.Generated
import TreeLens.Proofs.Text.Words
import TreeLens.Proofs.View.Building
