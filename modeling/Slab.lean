import Slab.Main
import Slab.Affinity.Placement
import Slab.Workspace.Basic
import Slab.Proofs.Pool.Linearization
import Slab.Proofs.Pool.Observation
import Slab.Proofs.Workspace.Preservation
import Slab.Proofs.Workspace.Requests
import Slab.Proofs.Workspace.Addresses
import Slab.Proofs.Arena.Carving
import Slab.Proofs.Arena.Construction
import Slab.Proofs.Arena.Answers
import Slab.Proofs.Settings.Loaded
import Slab.Proofs.Prediction
import Slab.Proofs.Workspace.Independence
import Slab.Proofs.Affinity.Printing
import Slab.Proofs.Run.Shift
import Slab.Proofs.Run.Supply
import Slab.Proofs.Run.Relay
import Slab.Proofs.Run.Totals
import Slab.Proofs.Settings.Footprint
import Slab.Proofs.Settings.Layers
import Slab.Proofs.Settings.Order
import Slab.Proofs.Settings.Reading
import Slab.Proofs.Settings.Precedence
import Slab.Proofs.Settings.NamedFile
import Slab.Proofs.Settings.Spelling
import Slab.Proofs.Settings.RoundTrip
import Slab.Proofs.Pool.Census
import Slab.Metrics.Registry
import Slab.Metrics.Scrape
import Slab.Proofs.Metrics.History
import Slab.Proofs.Metrics.Registration
import Slab.Proofs.Metrics.Exposition
import Slab.Proofs.Number.Rounding
import Slab.Proofs.Metrics.Scraping
import Slab.Proofs.Settings.Listing
import Slab.Proofs.Arena.Verdict
import Slab.Proofs.CommandLine.Spelling
import Slab.Proofs.Run.Failure
import Slab.Proofs.Run.Placement
import Slab.Proofs.Pool.Progress
import Slab.Proofs.Pool.Deltas
import Slab.Proofs.Workspace.Bounds
