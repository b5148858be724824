import Whisker.Calendar
import Whisker.Engine
import Whisker.Entries
import Whisker.Failure
import Whisker.Filter
import Whisker.Library.Cache
import Whisker.Library.FileTree
import Whisker.Library.Loader
import Whisker.Library.Path
import Whisker.Library.Resolver
import Whisker.Number.Binary64
import Whisker.Number.Shortest
import Whisker.Pragmas
import Whisker.Render
import Whisker.Run
import Whisker.Scope
import Whisker.Settings.Basic
import Whisker.Settings.Field
import Whisker.Settings.File
import Whisker.Settings.Options
import Whisker.Settings.Problem
import Whisker.Template.Fault
import Whisker.Template.Node
import Whisker.Template.Node.Outline
import Whisker.Template.Place
import Whisker.Template.Tag
import Whisker.Template.Token
import Whisker.Template.Token.Scan
import Whisker.Text.Base64
import Whisker.Text.Basic
import Whisker.Text.Case
import Whisker.Text.Case.Tables
import Whisker.Text.Characters
import Whisker.Text.Numeral
import Whisker.Text.Output
import Whisker.Text.Printable
import Whisker.Text.Quoted
import Whisker.Text.Utf8
import Whisker.View.Build
import Whisker.View.Call
import Whisker.View.Delimiters
import Whisker.View.Heap
import Whisker.View.Lookup
import Whisker.View.Printed
import Whisker.View.Section
import Whisker.View.Value
import Whisker.Yaml.Basic
import Whisker.Yaml.Cursor
import Whisker.Yaml.Data
import Whisker.Yaml.Document
import Whisker.Yaml.Meaning
import Whisker.Yaml.Plain
import Whisker.Yaml.Scalar
import Whisker.Yaml.Tag
import Whisker.Yaml.Timestamp
import Whisker.Yaml.Token
import Whisker.Yaml.Token.Scan
import Whisker.Yaml.Tree
import Whisker.Proofs.Template.Scan
import Whisker.Proofs.Template.Tiling
import Whisker.Proofs.Text.Search
import Whisker.Proofs.Template.Nesting
import Whisker.Proofs.Template.Body
import Whisker.Engine.Session
import Whisker.Proofs.Engine.History
import Whisker.Proofs.Template.Print
import Whisker.Proofs.Engine.Rendering
import Whisker.Proofs.Render.Checked
import Whisker.Proofs.Render.Guards
import Whisker.Proofs.Engine.Escaping
import Whisker.Proofs.Render.Parents
import Whisker.Proofs.Text.Numeral
import Whisker.Proofs.View.Data
import Whisker.Proofs.Library.Shelf
import Whisker.Proofs.Render.Bond
import Whisker.Proofs.Render.Limits
import Whisker.Proofs.Engine.Limits
import Whisker.Proofs.View.Passive
import Whisker.Proofs.Run.Tame
import Whisker.Proofs.View.Tame
import Whisker.Proofs.Engine.Chains
import Whisker.Proofs.Template.Faults
import Whisker.Proofs.Library.Once
import Whisker.Proofs.Run.Kept
import Whisker.Proofs.Engine.Once
import Whisker.Proofs.View.Rename
import Whisker.Proofs.View.Pure
import Whisker.Proofs.View.Shift
import Whisker.Proofs.Run.Shift
import Whisker.Proofs.View.Follows
import Whisker.Proofs.View.Leaves
import Whisker.Proofs.Scope.Session
import Whisker.Proofs.Render.Follows
import Whisker.Proofs.Template.Lines
import Whisker.Proofs.Template.LoneTags
import Whisker.Proofs.Template.Marks
import Whisker.Proofs.Render.Outermost
import Whisker.Proofs.Engine.Skipped
import Whisker.Proofs.Render.Skipped
import Whisker.Proofs.Engine.Private
import Whisker.Proofs.Render.ItemNames
import Whisker.Proofs.Render.Variables
import Whisker.Proofs.Scope.Scoping
import Whisker.Proofs.Run.Relabel
import Whisker.Proofs.View.Relabel
import Whisker.Proofs.Render.Relabel
import Whisker.Proofs.Render.Around
import Whisker.Proofs.Engine.Around
import Whisker.Proofs.Template.Trimming
import Whisker.Proofs.View.Uncalled
import Whisker.Proofs.Run.Twins
import Whisker.Proofs.Render.FilterChains
import Whisker.Proofs.Render.Filters
import Whisker.Proofs.Engine.Filters
import Whisker.Proofs.Library.Aggregate
import Whisker.Proofs.Text.Lines
import Whisker.Proofs.Render.Indentation
import Whisker.Proofs.Scope.IteratorFrames
import Whisker.Proofs.Template.Locations
import Whisker.Proofs.Text.Utf8
import Whisker.Proofs.Settings.Options
import Whisker.Proofs.Settings.File
