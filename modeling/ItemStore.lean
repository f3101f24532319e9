import ItemStore.Execution.Written
import ItemStore.Expression.Meaning
import ItemStore.Expression.Written
import ItemStore.Proofs.Expression.Grammar
import ItemStore.Proofs.Expression.Placeholders
import ItemStore.Record.Written
import ItemStore.Request.Samples
import ItemStore.Shape.Registry
import ItemStore.Proofs.Expression.ConditionText
import ItemStore.Proofs.Outcome
import ItemStore.Proofs.Request.KeyCondition
import ItemStore.Proofs.Expression.UpdateEffect
import ItemStore.Proofs.Expression.UpdateGrammar
import ItemStore.Proofs.Expression.UpdateText
import ItemStore.Proofs.Store.Keys
import ItemStore.Proofs.Store.Steps
import ItemStore.Proofs.Store.Views
import ItemStore.Proofs.Store.Paging
import ItemStore.Proofs.Store.Refusals
import ItemStore.Proofs.Store.Contents
import ItemStore.Proofs.Store.Locality
import ItemStore.Proofs.Store.Transactions
import ItemStore.Proofs.Shape.Compilation
import ItemStore.Proofs.Request.Keys
import ItemStore.Proofs.Request.Several
import ItemStore.Proofs.Record.Indexes
import ItemStore.Proofs.Record.Shapes
import ItemStore.Proofs.Number.Digits
import ItemStore.Proofs.Time.Calendar
import ItemStore.Proofs.Time.Text
import ItemStore.Proofs.Value.SortedSet
import ItemStore.Proofs.Value.Uuid
import ItemStore.Proofs.Record.RoundTrip
import ItemStore.Proofs.Record.Rereading
import ItemStore.Proofs.Execution.BatchWrites
import ItemStore.Proofs.Execution.BatchGets
import ItemStore.Proofs.Execution.QueryStreams
import ItemStore.Proofs.Execution.Retries
import ItemStore.Proofs.Execution.StreamCalls
import ItemStore.Proofs.Request.Items
import ItemStore.Proofs.Store.Chronicles
import ItemStore.Proofs.Text.Base64
import ItemStore.Proofs.Text.Json
import ItemStore.Proofs.Value.Written
import ItemStore.Proofs.Request.Cursors
import ItemStore.Proofs.Record.Agreement
import ItemStore.Proofs.Number.Sums
import ItemStore.Proofs.Expression.Operands
import ItemStore.Proofs.Record.Requirements
import ItemStore.Proofs.Request.Acceptance
import ItemStore.Proofs.Execution.Acceptance
import ItemStore.Proofs.Record.Typing
import ItemStore.Proofs.Execution.Interleaving
import ItemStore.Proofs.Execution.Independence
import ItemStore.Proofs.Execution.PooledWrites
import ItemStore.Proofs.Execution.Counting
import ItemStore.Proofs.Request.Existence
import ItemStore.Proofs.Execution.FirstPut
import ItemStore.Proofs.Shape.Registration
import ItemStore.Proofs.Number.Texts
import ItemStore.Proofs.Number.Values
import ItemStore.Proofs.Number.Reader
import ItemStore.Proofs.Value.Equality
import ItemStore.Proofs.Store.Resubmission
import ItemStore.Proofs.Expression.Layout
import ItemStore.Proofs.Expression.Syntax
import ItemStore.Proofs.Request.KeyPredicates
import ItemStore.Proofs.Expression.Containment
import ItemStore.Proofs.Value.Depth
import ItemStore.Proofs.Expression.NumberTexts
import ItemStore.Proofs.Shape.Validity
import ItemStore.Proofs.Request.KeyChecks
import ItemStore.Proofs.Expression.SetHistories
import ItemStore.Proofs.Store.Segments
import ItemStore.Proofs.Expression.Mentions
import ItemStore.Proofs.Request.PlanBindings
import ItemStore.Proofs.Request.Builders
import ItemStore.Proofs.Number.Integers
import ItemStore.Proofs.Store.Sorting
