import QueryCache.Error
import QueryCache.Datum.Json
import QueryCache.Datum.Binary
import QueryCache.Envelope
import QueryCache.Store.Repository
import QueryCache.Source
import QueryCache.Engine.Query
import QueryCache.Engine.Update
import QueryCache.Engine.Contract
import QueryCache.Simulation.Entry
import QueryCache.Simulation.Scenario
import QueryCache.KeyList
import QueryCache.Version
import QueryCache.Time.Timestamp
import QueryCache.Json.Check
import QueryCache.Proofs.Actions
import QueryCache.Proofs.Requests
import QueryCache.Proofs.HitRecords
import QueryCache.Proofs.TableEdits
import QueryCache.Proofs.Soundness
import QueryCache.Proofs.Ledger
import QueryCache.Proofs.LedgerRefinement
import QueryCache.Proofs.Atomicity
import QueryCache.Proofs.Calls
import QueryCache.Proofs.Scenes
import QueryCache.Proofs.Cascade
import QueryCache.Proofs.Names
import QueryCache.Proofs.Faithful
import QueryCache.Proofs.Answers
import QueryCache.Proofs.Changes
import QueryCache.Proofs.Creations
import QueryCache.Proofs.Transparency
import QueryCache.Proofs.Outcomes
import QueryCache.Proofs.Attainment
import QueryCache.Proofs.Revisions
import QueryCache.Proofs.Integrity
import QueryCache.Proofs.Freshness
import QueryCache.Proofs.Repair
import QueryCache.Proofs.Similarity
import QueryCache.Proofs.Likeness
import QueryCache.Proofs.Notes
import QueryCache.Proofs.Served
import QueryCache.Proofs.FailOpen
import QueryCache.Proofs.Correspondence
import QueryCache.Proofs.Isolation
import QueryCache.Proofs.Publication
import QueryCache.Proofs.Forgetting
import QueryCache.Proofs.FailedReads
import QueryCache.Proofs.Depth
import QueryCache.Proofs.Tandem
import QueryCache.Proofs.Surroundings
import QueryCache.Proofs.Listings
import QueryCache.Proofs.Staging
import QueryCache.Proofs.Records
import QueryCache.Proofs.Pruning
import QueryCache.Proofs.Settlement
import QueryCache.Proofs.Replay
import QueryCache.Proofs.Rounding
import QueryCache.Proofs.Numerals
import QueryCache.Proofs.Texts
import QueryCache.Proofs.Canonicity
import QueryCache.Proofs.Keys
import QueryCache.Proofs.Delimitation
import QueryCache.Proofs.Labels
import QueryCache.Proofs.Rejections
import QueryCache.Proofs.Legibility
import QueryCache.Proofs.FailedCalls
import QueryCache.Proofs.Commutation
import QueryCache.Proofs.JsonFaults
import QueryCache.Proofs.Reports
import QueryCache.Proofs.InsertionOrder
import QueryCache.Proofs.Lockstep
import QueryCache.Proofs.OwnRows
import QueryCache.Proofs.Tally
import QueryCache.Proofs.RemovalReports
