import Multimap.Backend.Basic
import Multimap.Backend.Copy
import Multimap.Backend.Either
import Multimap.Backend.Factory
import Multimap.Bytes
import Multimap.Catalog
import Multimap.Chained.Arena
import Multimap.Chained.Backend
import Multimap.Chained.Contents
import Multimap.Chained.Cursor
import Multimap.Chained.Digest
import Multimap.Chained.Guarded
import Multimap.Chained.Memory
import Multimap.Chained.Table
import Multimap.Chained.Tuning
import Multimap.Error
import Multimap.Handle.Basic
import Multimap.Handle.Listing
import Multimap.Handle.Texts
import Multimap.Ordered.Store
import Multimap.Probe.Journal
import Multimap.Probe.Store
import Multimap.Proofs.Catalog
import Multimap.Proofs.Chained.Adding
import Multimap.Proofs.Chained.Copying
import Multimap.Proofs.Chained.Cursor
import Multimap.Proofs.Chained.Digest
import Multimap.Proofs.Chained.Doubling
import Multimap.Proofs.Chained.Filling
import Multimap.Proofs.Chained.Gathering
import Multimap.Proofs.Chained.Growth
import Multimap.Proofs.Chained.Guarded
import Multimap.Proofs.Chained.Handles
import Multimap.Proofs.Chained.Integers
import Multimap.Proofs.Chained.Layout
import Multimap.Proofs.Chained.Links
import Multimap.Proofs.Chained.Operations
import Multimap.Proofs.Chained.Order
import Multimap.Proofs.Chained.Reachable
import Multimap.Proofs.Chained.Reading
import Multimap.Proofs.Chained.Refinement
import Multimap.Proofs.Chained.Removing
import Multimap.Proofs.Chained.Room
import Multimap.Proofs.Chained.Safety
import Multimap.Proofs.Chained.Settings
import Multimap.Proofs.Chained.Splitting
import Multimap.Proofs.Chained.Sufficient
import Multimap.Proofs.Chained.Texts
import Multimap.Proofs.Chained.Walking
import Multimap.Proofs.Effects
import Multimap.Proofs.Handle.Actions
import Multimap.Proofs.Handle.Attempts
import Multimap.Proofs.Handle.FailedCopy
import Multimap.Proofs.Handle.Forgetting
import Multimap.Proofs.Handle.Life
import Multimap.Proofs.Handle.Watched
import Multimap.Proofs.Settings.Automaton
import Multimap.Proofs.Settings.Characters
import Multimap.Proofs.Settings.Joining
import Multimap.Proofs.Settings.Placement
import Multimap.Proofs.Settings.Written
import Multimap.Proofs.Text.Integer
import Multimap.Proofs.Text.Utf8
import Multimap.Proofs.Traversal.Contents
import Multimap.Proofs.Traversal.Discipline
import Multimap.Proofs.Traversal.Enumeration
import Multimap.Proofs.Traversal.Reader
import Multimap.Proofs.Traversal.Release
import Multimap.Proofs.Traversal.Stability
import Multimap.Settings.Automaton
import Multimap.Settings.Characters
import Multimap.Settings.Parser
import Multimap.Settings.Scan
import Multimap.Settings.Written
import Multimap.Text.Blank
import Multimap.Text.DefaultIgnorable
import Multimap.Text.ExtendingMarks
import Multimap.Text.Integer
import Multimap.Text.Nonprinting
import Multimap.Text.Numeral
import Multimap.Text.Quoted
import Multimap.Text.Ranges
import Multimap.Text.Record
import Multimap.Text.Shown
import Multimap.Text.Utf8
import Multimap.Traversal.Contents
import Multimap.Traversal.Cursor
import Multimap.Traversal.Request
import Multimap.Traversal.Walk
