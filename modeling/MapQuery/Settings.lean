import MapQuery.Decimal.Numeral
import MapQuery.Text.Blank
import MapQuery.Text.Quoted

/-!
# Settings

Three settings are read from named variables. A variable that is missing or blank leaves the
default; any other value must be valid, and the first one that is not is reported.
-/

namespace MapQuery

structure Settings where
  /-- The coordinate reference system in which layers are buffered that do not measure in metres. -/
  metricCrs : String
  /-- The number of segments in a quarter of a circle. -/
  bufferSegments : UInt32
  /-- The most replies that are remembered; there is no limit if it is missing. -/
  cacheCapacity : Option UInt64
deriving Repr, DecidableEq

namespace Settings

/-- The settings where no variable is set. -/
def default : Settings := ⟨"EPSG:3006", 5, none⟩

/-! ## Variables -/

def metricCrsVariable : String := "GEOASK_METRIC_CRS"

def bufferSegmentsVariable : String := "GEOASK_BUFFER_SEGMENTS"

def cacheCapacityVariable : String := "GEOASK_RESPONSE_CACHE_CAPACITY"

inductive Problem where
  | metricCrs (value : String)
  | bufferSegments (value : String)
  | noBufferSegments
  | cacheCapacity (value : String)
deriving Repr, DecidableEq

def Problem.message : Problem → String
  | metricCrs value =>
    "invalid " ++ metricCrsVariable ++ "=" ++ Text.quoted value
      ++ " (expected an authority id such as EPSG:3006)"
  | bufferSegments value =>
    "invalid " ++ bufferSegmentsVariable ++ "=" ++ Text.quoted value
      ++ " (expected a positive integer)"
  | noBufferSegments =>
    "invalid " ++ bufferSegmentsVariable ++ "=0 (expected a positive integer)"
  | cacheCapacity value =>
    "invalid " ++ cacheCapacityVariable ++ "=" ++ Text.quoted value
      ++ " (expected an integer or `unbounded`)"

/-! ## Values of variables -/

/-- A coordinate reference system by the id that an authority gave it. -/
def parseMetricCrs (value : String) : Except Problem String :=
  if ':' ∈ value.toList then .ok value else .error (.metricCrs value)

/-- A positive number that fits 32 bits. -/
def parseBufferSegments (value : String) : Except Problem UInt32 :=
  match Numeral.natural? UInt32.size value.toList with
  | none => .error (.bufferSegments value)
  | some n => if n = 0 then .error .noBufferSegments else .ok (UInt32.ofNat n)

/-- A number that fits 64 bits, or the word `unbounded` for no limit. -/
def parseCacheCapacity (value : String) : Except Problem (Option UInt64) :=
  if value.toList.map Char.toLower = "unbounded".toList then .ok none
  else
    match Numeral.natural? UInt64.size value.toList with
    | none => .error (.cacheCapacity value)
    | some n => .ok (some (UInt64.ofNat n))

/-- The value of a variable without blanks around it, if something is left. -/
def trimmedValue? (value : Option String) : Option String :=
  (value.map fun text ↦ String.ofList (Text.trim text.toList)).filter (· ≠ "")

/-- The value of a variable, or the default where it is missing or blank. -/
def valueOr {α : Type} (parse : String → Except Problem α) (fallback : α) (value : Option String) :
    Except Problem α :=
  match trimmedValue? value with
  | none => .ok fallback
  | some text => parse text

/-- The settings that the variables give; `lookup` tells the value of a variable. -/
def ofVariables (lookup : String → Option String) : Except Problem Settings := do
  let metricCrs ← valueOr parseMetricCrs default.metricCrs (lookup metricCrsVariable)
  let bufferSegments ←
    valueOr parseBufferSegments default.bufferSegments (lookup bufferSegmentsVariable)
  let cacheCapacity ←
    valueOr parseCacheCapacity default.cacheCapacity (lookup cacheCapacityVariable)
  return ⟨metricCrs, bufferSegments, cacheCapacity⟩

/-! ## Forms -/

/-- The settings in words, for people who look into a running assistant. -/
def describe (settings : Settings) : String :=
  let capacity :=
    match settings.cacheCapacity with
    | none => "None"
    | some n => "Some(" ++ toString n.toNat ++ ")"
  "GeoaskConfig \x7b metric_crs: " ++ Text.quoted settings.metricCrs ++ ", buffer_segments: "
    ++ toString settings.bufferSegments.toNat ++ ", response_cache_capacity: " ++ capacity
    ++ " \x7d"

end Settings

end MapQuery
