import KeyBroker.Session.Run
import KeyBroker.Settings.Layers
import KeyBroker.Proofs.Snapshot
import KeyBroker.Proofs.Ledger.Meaning
import KeyBroker.Proofs.Ledger.Amendment
import KeyBroker.Proofs.Ledger.Chronicle
import KeyBroker.Proofs.Store.Act
import KeyBroker.Proofs.Store.History
import KeyBroker.Proofs.Store.Feed
import KeyBroker.Proofs.Store.Stream
import KeyBroker.Proofs.Store.Reconstruction
import KeyBroker.Proofs.System.Move
import KeyBroker.Proofs.System.Wiring
import KeyBroker.Proofs.System.Moves
import KeyBroker.Proofs.Delivery.Dispatch
import KeyBroker.Proofs.Delivery.Sound
import KeyBroker.Proofs.Delivery.Tracking
import KeyBroker.Proofs.Delivery.Ending
import KeyBroker.Proofs.Delivery.Running
import KeyBroker.Proofs.Delivery.Block
import KeyBroker.Proofs.Listing.Iteration
import KeyBroker.Proofs.System.Calls
import KeyBroker.Proofs.Listing.Replies
import KeyBroker.Proofs.Listing.Serving
import KeyBroker.Proofs.Listing.Reader
import KeyBroker.Proofs.Listing.Faithful
import KeyBroker.Proofs.Ledger.Compaction
import KeyBroker.Proofs.Store.Compaction
import KeyBroker.Proofs.Delivery.Accounts
import KeyBroker.Proofs.Delivery.Retained
import KeyBroker.Proofs.Delivery.Dropping
import KeyBroker.Proofs.System.Polls
import KeyBroker.Proofs.System.Alike
import KeyBroker.Proofs.System.Fates
import KeyBroker.Proofs.System.Effects
import KeyBroker.Proofs.System.Without
import KeyBroker.Proofs.Ledger.Holding
import KeyBroker.Proofs.Ledger.Touching
import KeyBroker.Proofs.System.Frame
import KeyBroker.Proofs.System.Shelter
import KeyBroker.Proofs.System.Calling
import KeyBroker.Proofs.Delivery.Unbroken
import KeyBroker.Proofs.View.Within
import KeyBroker.Proofs.View.Ledgers
import KeyBroker.Proofs.View.Client
import KeyBroker.Proofs.View.Answers
import KeyBroker.Proofs.View.Steps
import KeyBroker.Proofs.View.Both
import KeyBroker.Proofs.View.Private
import KeyBroker.Proofs.Ledger.Squeezing
import KeyBroker.Proofs.Store.Squeezing
import KeyBroker.Proofs.Register.Episodes
import KeyBroker.Proofs.Register.Shifts
import KeyBroker.Proofs.Register.Incidents
import KeyBroker.Proofs.Register.Endings
import KeyBroker.Proofs.Register.Exact
import KeyBroker.Proofs.Register.Silence
import KeyBroker.Proofs.Register.Bookkeeping
import KeyBroker.Proofs.Shutdown.Orders
import KeyBroker.Proofs.Shutdown.Requests
import KeyBroker.Proofs.Shutdown.Refusals
import KeyBroker.Proofs.Shutdown.Endings
import KeyBroker.Proofs.Shutdown.Absolute
import KeyBroker.Proofs.Independence.Anonymous
import KeyBroker.Proofs.Independence.Outlet
import KeyBroker.Proofs.Independence.Subscriber
import KeyBroker.Proofs.Independence.Others
import KeyBroker.Proofs.Independence.Core
import KeyBroker.Proofs.Independence.Actions
import KeyBroker.Proofs.Independence.Independent
import KeyBroker.Proofs.Ledger.Intact
import KeyBroker.Proofs.Store.Intact
import KeyBroker.Proofs.Store.Filling
import KeyBroker.Proofs.Following.Line
import KeyBroker.Proofs.Following.Meanwhile
import KeyBroker.Proofs.Following.Supplied
import KeyBroker.Proofs.Following.Progress
import KeyBroker.Proofs.Following.Follow
import KeyBroker.Proofs.Following.Loss
import KeyBroker.Proofs.Following.Forsaken
import KeyBroker.Proofs.Retrying.Granted
import KeyBroker.Proofs.Retrying.Plea
import KeyBroker.Proofs.Retrying.Relief
import KeyBroker.Proofs.Retrying.Retryable
import KeyBroker.Proofs.Store.Revisions
import KeyBroker.Proofs.Usable.Waiting
import KeyBroker.Proofs.Usable.Accepted
import KeyBroker.Proofs.Ledger.Telling
import KeyBroker.Proofs.Eager.Deposits
import KeyBroker.Proofs.Eager.Unseen
import KeyBroker.Proofs.System.Same
import KeyBroker.Proofs.Listing.Fetching
import KeyBroker.Proofs.Listing.Course
import KeyBroker.Proofs.Listing.Failing
import KeyBroker.Proofs.Listing.Lost
import KeyBroker.Proofs.Listing.Streaming
import KeyBroker.Proofs.Listing.Harmless
import KeyBroker.Proofs.Key
import KeyBroker.Proofs.Ledger.Ranges
import KeyBroker.Proofs.Store.Ranges
import KeyBroker.Proofs.Store.Clearing
import KeyBroker.Proofs.System.Asking
import KeyBroker.Proofs.System.Even
import KeyBroker.Proofs.System.Told
import KeyBroker.Proofs.Batch.Recorded
import KeyBroker.Proofs.Batch.Once
import KeyBroker.Proofs.Register.Leaving
import KeyBroker.Proofs.Following.Copies
import KeyBroker.Proofs.Together.Course
import KeyBroker.Proofs.Together.Undone
import KeyBroker.Proofs.Together.Granted
import KeyBroker.Proofs.Together.AllOrNone
import KeyBroker.Proofs.Store.Openings
import KeyBroker.Proofs.Confined.Turns
import KeyBroker.Proofs.Confined.Listings
import KeyBroker.Proofs.Confined.Watching
import KeyBroker.Proofs.Verdict.Backends
import KeyBroker.Proofs.Verdict.Runs
import KeyBroker.Proofs.Verdict.Tally
import KeyBroker.Proofs.Layers.Ways
import KeyBroker.Proofs.Layers.Laying
import KeyBroker.Proofs.Layers.Having
import KeyBroker.Proofs.Layers.Merged
