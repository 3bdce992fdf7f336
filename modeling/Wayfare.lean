import Wayfare.Block
import Wayfare.Booking
import Wayfare.Booking.Document
import Wayfare.Calendar.Date
import Wayfare.Calendar.IsoText
import Wayfare.Calendar.Moment
import Wayfare.Category.Affinity
import Wayfare.Category.Keyword
import Wayfare.Category.Style
import Wayfare.Category.Taxonomy
import Wayfare.Choice
import Wayfare.Cluster.Digest
import Wayfare.Cluster.KMeans
import Wayfare.Cluster.Seed
import Wayfare.Cluster.Seeding
import Wayfare.Cluster.Twister
import Wayfare.Decimal.Binary
import Wayfare.Decimal.Fixed
import Wayfare.Decimal.Numeral
import Wayfare.Decimal.Shortest
import Wayfare.Entries
import Wayfare.Fault
import Wayfare.Geo.Distance
import Wayfare.Geo.Travel
import Wayfare.Grid
import Wayfare.Grid.Confirmed
import Wayfare.Grid.Distribution
import Wayfare.Grid.Selected
import Wayfare.Grid.Suggested
import Wayfare.Ident
import Wayfare.Intake
import Wayfare.Itinerary
import Wayfare.Log
import Wayfare.Number
import Wayfare.Numeric
import Wayfare.Options
import Wayfare.Place
import Wayfare.Place.Coordinates
import Wayfare.Place.Record
import Wayfare.Plan.Beam
import Wayfare.Plan.Planner
import Wayfare.Plan.Router
import Wayfare.Plan.Selection
import Wayfare.Plan.Stop
import Wayfare.Pool
import Wayfare.Proofs.Booking
import Wayfare.Proofs.Calendar.MomentText
import Wayfare.Proofs.Category.Agreement
import Wayfare.Proofs.Category.Keyword
import Wayfare.Proofs.Category.WholeWords
import Wayfare.Proofs.Choice
import Wayfare.Proofs.Cluster.Balance
import Wayfare.Proofs.Cluster.Clustering
import Wayfare.Proofs.Cluster.FirstCentres
import Wayfare.Proofs.Cluster.Fixpoint
import Wayfare.Proofs.Cluster.Partition
import Wayfare.Proofs.Decimal.Arithmetic
import Wayfare.Proofs.Decimal.Bits
import Wayfare.Proofs.Decimal.Conversion
import Wayfare.Proofs.Decimal.Difference
import Wayfare.Proofs.Decimal.Digits
import Wayfare.Proofs.Decimal.Rounding
import Wayfare.Proofs.Decimal.Shortest
import Wayfare.Proofs.Decimal.Whole
import Wayfare.Proofs.Geo.Travel
import Wayfare.Proofs.Grid.Chronology
import Wayfare.Proofs.Grid.Days
import Wayfare.Proofs.Grid.Distinct
import Wayfare.Proofs.Grid.Distribution
import Wayfare.Proofs.Grid.FixedOrder
import Wayfare.Proofs.Grid.FixedPass
import Wayfare.Proofs.Grid.Outcome
import Wayfare.Proofs.Grid.RankedFill
import Wayfare.Proofs.Grid.SelectionPass
import Wayfare.Proofs.Grid.SuggestionPass
import Wayfare.Proofs.Grouping
import Wayfare.Proofs.Itinerary
import Wayfare.Proofs.Log
import Wayfare.Proofs.Number
import Wayfare.Proofs.Numeric
import Wayfare.Proofs.Place.Acceptance
import Wayfare.Proofs.Place.Construction
import Wayfare.Proofs.Place.Decoding
import Wayfare.Proofs.Place.FieldValues
import Wayfare.Proofs.Plan.AnchoredDays
import Wayfare.Proofs.Plan.BeamPicks
import Wayfare.Proofs.Plan.BeamSearch
import Wayfare.Proofs.Plan.CheapestPicks
import Wayfare.Proofs.Plan.ClusterMajor
import Wayfare.Proofs.Plan.DayRoutes
import Wayfare.Proofs.Plan.FinalSelection
import Wayfare.Proofs.Plan.FreeDays
import Wayfare.Proofs.Plan.Outcome
import Wayfare.Proofs.Plan.RouteTotals
import Wayfare.Proofs.Plan.Routing
import Wayfare.Proofs.Plan.SharedDays
import Wayfare.Proofs.Plan.StopIdentifiers
import Wayfare.Proofs.Plan.TakenPicks
import Wayfare.Proofs.Plan.TripRoutes
import Wayfare.Proofs.Plan.TripVisits
import Wayfare.Proofs.Plan.Visits
import Wayfare.Proofs.Plan.WideBeam
import Wayfare.Proofs.Pool
import Wayfare.Proofs.Popularity
import Wayfare.Proofs.Ranking
import Wayfare.Proofs.RealOrder
import Wayfare.Proofs.Route.Annotation
import Wayfare.Proofs.Route.BlockWalks
import Wayfare.Proofs.Route.CostTables
import Wayfare.Proofs.Route.DirectedCost
import Wayfare.Proofs.Route.Improvement
import Wayfare.Proofs.Route.Insertion
import Wayfare.Proofs.Route.Length
import Wayfare.Proofs.Route.LocalOptimum
import Wayfare.Proofs.Route.Membership
import Wayfare.Proofs.Route.Rearrangement
import Wayfare.Proofs.Route.Strategies
import Wayfare.Proofs.RunSort
import Wayfare.Proofs.Score
import Wayfare.Proofs.Shortlist
import Wayfare.Proofs.SortByKey
import Wayfare.Proofs.SortedValues
import Wayfare.Proofs.Success
import Wayfare.Proofs.Text.Case
import Wayfare.Proofs.Validation
import Wayfare.Proofs.Validation.Terms
import Wayfare.Proofs.Value.Lines
import Wayfare.Proofs.Value.Numbers
import Wayfare.Proofs.Value.RoundTrip
import Wayfare.Proofs.Value.Texts
import Wayfare.Proofs.Value.Words
import Wayfare.Request
import Wayfare.Route.Annotated
import Wayfare.Route.CostModel
import Wayfare.Route.Insertion
import Wayfare.Route.Nearest
import Wayfare.Route.Path
import Wayfare.Route.Strategy
import Wayfare.Route.Terrain
import Wayfare.Route.TwoOpt
import Wayfare.RunSort
import Wayfare.Score
import Wayfare.Session
import Wayfare.Settings
import Wayfare.Shortlist
import Wayfare.Summary
import Wayfare.Synthesis
import Wayfare.Text.Blank
import Wayfare.Text.Case
import Wayfare.Text.CaseTable
import Wayfare.Text.Digit
import Wayfare.Text.PrintTable
import Wayfare.Text.Quoted
import Wayfare.Text.Ranges
import Wayfare.Text.WordTable
import Wayfare.Validation
import Wayfare.Validation.Report
import Wayfare.Value
import Wayfare.Value.Number
import Wayfare.Value.Read
import Wayfare.Value.Write
import Wayfare.Wire
import Wayfare.Wire.Lenient
