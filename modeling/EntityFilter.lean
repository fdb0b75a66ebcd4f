import EntityFilter.Http.Message
import EntityFilter.Main
import EntityFilter.Repository.Memory
import EntityFilter.Proofs.Query.Confinement
import EntityFilter.Proofs.Query.Agreement
import EntityFilter.Proofs.Filter.Answer
import EntityFilter.Proofs.Filter.Dropping
import EntityFilter.Proofs.Filter.Duality
import EntityFilter.Proofs.Filter.Whitelist
import EntityFilter.Proofs.Query.Values
import EntityFilter.Proofs.Query.Quoted
import EntityFilter.Proofs.Filter.Shape
import EntityFilter.Proofs.Filter.Texts
import EntityFilter.Proofs.Text.Utf8
import EntityFilter.Proofs.Number.Decimal
import EntityFilter.Proofs.Request.FormText
import EntityFilter.Proofs.Request.NestedKey
import EntityFilter.Proofs.Request.Scalar
import EntityFilter.Proofs.Request.NestedQuery
import EntityFilter.Proofs.Filter.Wire
import EntityFilter.Proofs.Mutation.Attributes
import EntityFilter.Proofs.Mutation.Exclusive
import EntityFilter.Proofs.Mutation.Changed
import EntityFilter.Proofs.Mutation.Stored
import EntityFilter.Proofs.Mutation.Listing
import EntityFilter.Proofs.Store.Reaching
import EntityFilter.Proofs.Store.Listing
import EntityFilter.Proofs.Schema.Regular
import EntityFilter.Proofs.Schema.Lookups
import EntityFilter.Proofs.Repository.Mirrors
import EntityFilter.Proofs.Repository.Twins
import EntityFilter.Proofs.Repository.Agreement
import EntityFilter.Proofs.Repository.Linking
import EntityFilter.Proofs.Mutation.Entries
import EntityFilter.Proofs.Mutation.Agreement
import EntityFilter.Proofs.Mutation.Equivalence
import EntityFilter.Proofs.Repository.Attaching
import EntityFilter.Proofs.Repository.Saving
import EntityFilter.Proofs.Repository.Answering
import EntityFilter.Proofs.Mutation.Independence
import EntityFilter.Proofs.Query.Hiding
import EntityFilter.Proofs.Query.Reordering
import EntityFilter.Proofs.Request.Placement
import EntityFilter.Proofs.Query.Placeholders
import EntityFilter.Proofs.Store.Searching
import EntityFilter.Proofs.Filter.Respelling
import EntityFilter.Proofs.Repository.Joining
import EntityFilter.Proofs.Repository.Upserting
import EntityFilter.Proofs.Mutation.Repeating
import EntityFilter.Proofs.Repository.Uniqueness
import EntityFilter.Proofs.Query.Aliases
import EntityFilter.Proofs.Query.Display
import EntityFilter.Proofs.Query.Registration
import EntityFilter.Proofs.Filter.Projection
import EntityFilter.Proofs.Filter.Bucketing
import EntityFilter.Proofs.Schema.WellFormed
import EntityFilter.Proofs.Query.Dialects
import EntityFilter.Proofs.Settings.Expansion
import EntityFilter.Proofs.Request.KeyPath
import EntityFilter.Proofs.Mutation.Wire
