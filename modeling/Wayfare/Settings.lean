import Wayfare.Block
import Wayfare.Fault
import Wayfare.Text.Case
import Wayfare.Value
import Wayfare.Decimal.Numeral

/-! # Settings

Every number and name that tunes the planner, with its default, and how the
environment overrides it.
-/

namespace Wayfare

/-- Variables and their values; of two variables of one name the first counts. -/
abbrev Environment := List (String × String)

namespace Environment

def real (env : Environment) (name : String) (default : Float) : Result Float :=
  match env.lookup name with
  | none => .ok default
  | some s => Result.ofOption .unreadable (Decimal.readReal s)

def int (env : Environment) (name : String) (default : Int) : Result Int :=
  match env.lookup name with
  | none => .ok default
  | some s => Result.ofOption .unreadable (Decimal.readInt s)

def text (env : Environment) (name default : String) : String :=
  (env.lookup name).getD default

/-- A switch from the environment, on for one of three words. -/
def switch (env : Environment) (name default : String) : Bool :=
  ["1", "true", "yes"].contains (Text.lower (env.text name default))

def cutComment : List Char → List Char
  | [] => []
  | [c] => [c]
  | c :: d :: rest =>
      if Text.isBlankChar c && d == '#' then [] else c :: cutComment (d :: rest)

/-- Whether a character can stand in the name of a variable. -/
def isNameChar (c : Char) : Bool :=
  c != '=' && c != '#' && !Text.isBlankChar c

/-- Reads a line of a settings file: a name, and its value after a sign of equality. A name alone has no
value. Blank lines, comments and all other lines are left out. -/
def readLine (line : List Char) : Option (String × Option String) :=
  let cs := line.dropWhile Text.isBlankChar
  let name := String.ofList (cs.takeWhile isNameChar)
  let rest := (cs.dropWhile isNameChar).dropWhile Text.isBlankChar
  if name.isEmpty then none
  else
    match rest with
    | [] | '#' :: _ => some (name, none)
    | '=' :: value =>
        some (name, some (String.ofList
          (Text.trimChars (cutComment (value.dropWhile Text.isBlankChar)))))
    | _ => none

/-- Whether a character ends a line of a settings file. -/
def isFileEnd (c : Char) : Bool :=
  c == '\n' || c == '\r'

/-- The lines of a settings file, which end at line feeds and carriage returns only. A mark of byte order
in front of the first is left out. -/
def fileLines (file : String) : List (List Char) :=
  let cs :=
    match file.toList with
    | '\uFEFF' :: rest => rest
    | cs => cs
  cs.splitBy fun a b => !isFileEnd a && !isFileEnd b

/-- The variables that some lines set. Of two lines for one name the later counts, and a name without a
value is not set. -/
def settled : List (String × Option String) → Environment
  | [] => []
  | (name, value) :: rest =>
      if rest.any fun e => e.1 == name then settled rest
      else (value.map fun v => (name, v)).toList ++ settled rest

/-- Adds the variables that a settings file sets. A variable that is already set stays as it is. -/
def withFile (env : Environment) (file : String) : Environment :=
  env ++ settled ((fileLines file).filterMap readLine)

end Environment

/-- The tunable numbers and names. -/
structure Settings where
  earthRadius : Float := 6371.0
  /-- The farthest distance that counts as a walk. -/
  walkingDistance : Float := 2.0
  /-- Up to here a place counts as near, with the full distance score. -/
  nearDistance : Float := 5.0
  /-- From here on the distance score is zero. -/
  farDistance : Float := 10.0
  reviewLogBase : Float := 4.0
  maxRating : Float := 5.0
  distanceWeight : Float := 0.4
  qualityWeight : Float := 0.4
  diversityWeight : Float := 0.2
  candidatesPerCategory : Int := 10
  fetchMultiplier : Int := 3
  blockCapacity : Int := 2
  /-- How many selections a day takes before the next day's turn. -/
  selectionsPerDay : Int := 6
  suggestionsPerBlock : Int := 5
  clusterIterations : Int := 100
  clusterTolerance : Float := 0.001
  clusterSeed : Int := 42
  clusterSeeding : String := "spread"
  placesPerCluster : Int := 4
  maxPasses : Int := 1000
  routeStrategy : String := "distance"
  stayMinutes : Int := 90
  /-- How much longer a trip into a block takes than on free roads. -/
  congestion : PerBlock Float := ⟨1.5, 1.0, 1.3, 1.2, 1.8, 1.0⟩
  /-- Above this congestion a block is walked group by group. -/
  congestedAbove : Float := 1.3
  congestionMode : String := "car"
  balancedDistance : Float := 0.4
  balancedTime : Float := 0.3
  balancedPreference : Float := 0.3
  categorySwitch : Float := 2.0
  selection : String := "rank"
  beamWidth : Int := 3
  beamDistance : Float := 0.4
  beamTime : Float := 0.3
  beamRating : Float := 0.3
  beamDistanceUnit : Float := 10.0
  beamTimeUnit : Float := 30.0
  /-- Speeds in km/h of the known modes of transport. -/
  speeds : List (String × Float) := [("car", 30.0), ("public_transport", 20.0), ("walking", 4.0)]
  defaultSpeed : Float := 25.0
  defaultMode : String := "public_transport"
  logLevel : String := "INFO"
  eventsEnabled : Bool := false
  /-- The directory of the event log, when one is named. -/
  logDirectory : Option String := none

instance : Inhabited Settings := ⟨{}⟩

namespace Settings

/-- The settings that an environment gives. A value that does not read as a number is a fault. -/
def ofEnvironment (env : Environment) : Result Settings := do
  let d : Settings := {}
  return {
    earthRadius := ← env.real "EARTH_RADIUS_KM" d.earthRadius
    walkingDistance := ← env.real "WALKING_DISTANCE_KM" d.walkingDistance
    nearDistance := ← env.real "NEAR_DISTANCE_KM" d.nearDistance
    farDistance := ← env.real "FAR_DISTANCE_KM" d.farDistance
    reviewLogBase := ← env.real "REVIEW_LOG_BASE" d.reviewLogBase
    maxRating := ← env.real "MAX_RATING" d.maxRating
    distanceWeight := ← env.real "DISTANCE_WEIGHT" d.distanceWeight
    qualityWeight := ← env.real "QUALITY_WEIGHT" d.qualityWeight
    diversityWeight := ← env.real "DIVERSITY_WEIGHT" d.diversityWeight
    candidatesPerCategory := ← env.int "CANDIDATES_PER_CATEGORY" d.candidatesPerCategory
    fetchMultiplier := ← env.int "CANDIDATE_FETCH_MULTIPLIER" d.fetchMultiplier
    blockCapacity := ← env.int "MAX_PLACES_PER_BLOCK" d.blockCapacity
    selectionsPerDay := ← env.int "PLACES_PER_DAY_ROTATION" d.selectionsPerDay
    suggestionsPerBlock := ← env.int "AI_CANDIDATES_PER_BLOCK" d.suggestionsPerBlock
    clusterIterations := ← env.int "KMEANS_MAX_ITERATIONS" d.clusterIterations
    clusterTolerance := ← env.real "KMEANS_CONVERGENCE_KM" d.clusterTolerance
    clusterSeed := ← env.int "KMEANS_SEED" d.clusterSeed
    clusterSeeding := env.text "KMEANS_INIT" d.clusterSeeding
    placesPerCluster := ← env.int "PLACES_PER_ROUTE_CLUSTER" d.placesPerCluster
    maxPasses := ← env.int "TWO_OPT_MAX_PASSES" d.maxPasses
    routeStrategy := env.text "ROUTE_STRATEGY" d.routeStrategy
    stayMinutes := ← env.int "DEFAULT_STAY_MINUTES" d.stayMinutes
    congestedAbove := ← env.real "CONGESTED_BLOCK_THRESHOLD" d.congestedAbove
    congestionMode := env.text "CONGESTION_REFERENCE_MODE" d.congestionMode
    balancedDistance := ← env.real "BALANCED_DISTANCE_WEIGHT" d.balancedDistance
    balancedTime := ← env.real "BALANCED_TIME_WEIGHT" d.balancedTime
    balancedPreference := ← env.real "BALANCED_PREFERENCE_WEIGHT" d.balancedPreference
    categorySwitch := ← env.real "CATEGORY_SWITCH_COST" d.categorySwitch
    selection := env.text "AI_SELECTION_MODE" d.selection
    beamWidth := ← env.int "BEAM_WIDTH" d.beamWidth
    beamDistance := ← env.real "BEAM_DISTANCE_WEIGHT" d.beamDistance
    beamTime := ← env.real "BEAM_TIME_WEIGHT" d.beamTime
    beamRating := ← env.real "BEAM_RATING_WEIGHT" d.beamRating
    beamDistanceUnit := ← env.real "BEAM_DISTANCE_NORM_KM" d.beamDistanceUnit
    beamTimeUnit := ← env.real "BEAM_TIME_NORM_MINUTES" d.beamTimeUnit
    defaultSpeed := ← env.real "DEFAULT_SPEED_KMH" d.defaultSpeed
    defaultMode := env.text "DEFAULT_TRANSPORT_MODE" d.defaultMode
    logLevel := env.text "LOG_LEVEL" d.logLevel
    eventsEnabled := env.switch "ENABLE_STRUCTURED_LOGS" "false"
    logDirectory := env.lookup "STRUCTURED_LOG_DIR" }

/-- All settings under the names of their variables; the directory of the event log is listed only
when one is named. -/
def entries (s : Settings) : Fields :=
  [("EARTH_RADIUS_KM", .real s.earthRadius),
   ("WALKING_DISTANCE_KM", .real s.walkingDistance),
   ("NEAR_DISTANCE_KM", .real s.nearDistance),
   ("FAR_DISTANCE_KM", .real s.farDistance),
   ("REVIEW_LOG_BASE", .real s.reviewLogBase),
   ("MAX_RATING", .real s.maxRating),
   ("DISTANCE_WEIGHT", .real s.distanceWeight),
   ("QUALITY_WEIGHT", .real s.qualityWeight),
   ("DIVERSITY_WEIGHT", .real s.diversityWeight),
   ("CANDIDATES_PER_CATEGORY", .int s.candidatesPerCategory),
   ("CANDIDATE_FETCH_MULTIPLIER", .int s.fetchMultiplier),
   ("MAX_PLACES_PER_BLOCK", .int s.blockCapacity),
   ("PLACES_PER_DAY_ROTATION", .int s.selectionsPerDay),
   ("AI_CANDIDATES_PER_BLOCK", .int s.suggestionsPerBlock),
   ("KMEANS_MAX_ITERATIONS", .int s.clusterIterations),
   ("KMEANS_CONVERGENCE_KM", .real s.clusterTolerance),
   ("KMEANS_SEED", .int s.clusterSeed),
   ("KMEANS_INIT", .text s.clusterSeeding),
   ("PLACES_PER_ROUTE_CLUSTER", .int s.placesPerCluster),
   ("TWO_OPT_MAX_PASSES", .int s.maxPasses),
   ("ROUTE_STRATEGY", .text s.routeStrategy),
   ("DEFAULT_STAY_MINUTES", .int s.stayMinutes),
   ("BLOCK_CONGESTION",
     .record (Block.all.map fun b => (b.name, .real (s.congestion.get b)))),
   ("CONGESTED_BLOCK_THRESHOLD", .real s.congestedAbove),
   ("CONGESTION_REFERENCE_MODE", .text s.congestionMode),
   ("BALANCED_DISTANCE_WEIGHT", .real s.balancedDistance),
   ("BALANCED_TIME_WEIGHT", .real s.balancedTime),
   ("BALANCED_PREFERENCE_WEIGHT", .real s.balancedPreference),
   ("CATEGORY_SWITCH_COST", .real s.categorySwitch),
   ("AI_SELECTION_MODE", .text s.selection),
   ("BEAM_WIDTH", .int s.beamWidth),
   ("BEAM_DISTANCE_WEIGHT", .real s.beamDistance),
   ("BEAM_TIME_WEIGHT", .real s.beamTime),
   ("BEAM_RATING_WEIGHT", .real s.beamRating),
   ("BEAM_DISTANCE_NORM_KM", .real s.beamDistanceUnit),
   ("BEAM_TIME_NORM_MINUTES", .real s.beamTimeUnit),
   ("TRANSPORT_SPEEDS_KMH", .record (s.speeds.map fun p => (p.1, .real p.2))),
   ("DEFAULT_SPEED_KMH", .real s.defaultSpeed),
   ("DEFAULT_TRANSPORT_MODE", .text s.defaultMode),
   ("LOG_LEVEL", .text s.logLevel),
   ("ENABLE_STRUCTURED_LOGS", .bool s.eventsEnabled)] ++
  (s.logDirectory.map fun d => ("STRUCTURED_LOG_DIR", Value.text d)).toList

end Settings

/-- The name of the level that a word stands for; unknown words stand for the level of information. A
word that names something else of the message log is a fault. -/
def logLevelName (word : String) : Result String :=
  match Text.upperLatin word with
  | "CRITICAL" | "FATAL" => .ok "CRITICAL"
  | "ERROR" => .ok "ERROR"
  | "WARN" | "WARNING" => .ok "WARNING"
  | "DEBUG" => .ok "DEBUG"
  | "NOTSET" => .ok "NOTSET"
  | "BASIC_FORMAT" => .error .unreadable
  | "_STYLES" => .error .wrongKind
  | _ => .ok "INFO"

end Wayfare
