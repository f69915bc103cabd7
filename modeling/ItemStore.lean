import ItemStore.Attribute.Basic
import ItemStore.Attribute.Describe
import ItemStore.Attribute.Hashing
import ItemStore.Attribute.Marshal
import ItemStore.Attribute.Native
import ItemStore.Attribute.Wire
import ItemStore.Call.Basic
import ItemStore.Call.BatchGet
import ItemStore.Call.BatchWrite
import ItemStore.Call.Check
import ItemStore.Call.Delete
import ItemStore.Call.Get
import ItemStore.Call.Put
import ItemStore.Call.Query
import ItemStore.Call.Scan
import ItemStore.Call.Transaction
import ItemStore.Call.Update
import ItemStore.Config
import ItemStore.Duration
import ItemStore.Error
import ItemStore.Expression.Basic
import ItemStore.Expression.Bundle
import ItemStore.Expression.Compaction
import ItemStore.Expression.Condition
import ItemStore.Expression.Projection
import ItemStore.Expression.Scribe
import ItemStore.Expression.Token
import ItemStore.Expression.Update
import ItemStore.Json.Basic
import ItemStore.Json.Draft
import ItemStore.Json.Lexeme
import ItemStore.Json.Printer
import ItemStore.Json.Reader
import ItemStore.Json.Real
import ItemStore.Keyed
import ItemStore.Number.Binary64
import ItemStore.Number.Decimal
import ItemStore.Number.Layout
import ItemStore.Number.Shortest
import ItemStore.Number.Whole
import ItemStore.Operation
import ItemStore.Paging
import ItemStore.Path.Basic
import ItemStore.Path.Parser
import ItemStore.Proofs.Attribute.Canonical
import ItemStore.Proofs.Attribute.Hashing
import ItemStore.Proofs.Attribute.Marshal
import ItemStore.Proofs.Attribute.Sameness
import ItemStore.Proofs.Attribute.Wire
import ItemStore.Proofs.Call.BatchGet
import ItemStore.Proofs.Call.BatchWrite
import ItemStore.Proofs.Call.ByHand
import ItemStore.Proofs.Call.Causes
import ItemStore.Proofs.Call.Counts
import ItemStore.Proofs.Call.Drains
import ItemStore.Proofs.Call.Faithful
import ItemStore.Proofs.Call.OverFetch
import ItemStore.Proofs.Call.Pages
import ItemStore.Proofs.Call.Remainders
import ItemStore.Proofs.Call.Resuming
import ItemStore.Proofs.Call.Segments
import ItemStore.Proofs.Call.Validity
import ItemStore.Proofs.Expression.Bundles
import ItemStore.Proofs.Expression.ByteCuts
import ItemStore.Proofs.Expression.Canonical
import ItemStore.Proofs.Expression.Carried
import ItemStore.Proofs.Expression.Changes
import ItemStore.Proofs.Expression.Checking
import ItemStore.Proofs.Expression.Clauses
import ItemStore.Proofs.Expression.Compaction
import ItemStore.Proofs.Expression.Connectives
import ItemStore.Proofs.Expression.Deciding
import ItemStore.Proofs.Expression.Demands
import ItemStore.Proofs.Expression.Enumeration
import ItemStore.Proofs.Expression.Grammar
import ItemStore.Proofs.Expression.Lexemes
import ItemStore.Proofs.Expression.Meaning
import ItemStore.Proofs.Expression.Merging
import ItemStore.Proofs.Expression.Numbering
import ItemStore.Proofs.Expression.Offers
import ItemStore.Proofs.Expression.Phrases
import ItemStore.Proofs.Expression.Pieces
import ItemStore.Proofs.Expression.Projections
import ItemStore.Proofs.Expression.ReadBack
import ItemStore.Proofs.Expression.Recovery
import ItemStore.Proofs.Expression.Resolution
import ItemStore.Proofs.Expression.Slots
import ItemStore.Proofs.Expression.Sources
import ItemStore.Proofs.Expression.Words
import ItemStore.Proofs.Expression.Writing
import ItemStore.Proofs.Json.Printed
import ItemStore.Proofs.Json.Texts
import ItemStore.Proofs.Json.Trees
import ItemStore.Proofs.Path.Grammar
import ItemStore.Proofs.Path.RoundTrip
import ItemStore.Proofs.Service.Bodies
import ItemStore.Proofs.Service.Transience
import ItemStore.Proofs.Store.Attempts
import ItemStore.Proofs.Store.Chunks
import ItemStore.Proofs.Store.Failures
import ItemStore.Proofs.Store.Lanes
import ItemStore.Proofs.Store.Pages
import ItemStore.Proofs.Store.Partitions
import ItemStore.Proofs.Store.Slices
import ItemStore.Proofs.Store.Tables
import ItemStore.Proofs.Text.Base64
import ItemStore.Proofs.Text.Utf8
import ItemStore.Proofs.Wire.Capacity
import ItemStore.Proofs.Wire.Codecs
import ItemStore.Proofs.Wire.Printed
import ItemStore.Proofs.Wire.RoundTrip
import ItemStore.Proofs.Wire.Terse
import ItemStore.Service.Code
import ItemStore.Service.Error
import ItemStore.Service.Status
import ItemStore.Store.Attempts
import ItemStore.Store.Basic
import ItemStore.Store.Calls
import ItemStore.Store.Chunks
import ItemStore.Store.Pages
import ItemStore.Store.Session
import ItemStore.Text.Base64
import ItemStore.Text.Blank
import ItemStore.Text.Quoted
import ItemStore.Text.Shapeless
import ItemStore.Text.Utf8
import ItemStore.Wire.Capacity
import ItemStore.Wire.Choice
import ItemStore.Wire.Codec
import ItemStore.Wire.Entry
import ItemStore.Wire.Exchange
import ItemStore.Wire.Request
import ItemStore.Wire.Response
