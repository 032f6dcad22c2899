import MapQuery.Memory.Workspace

/-!
# A small town

A project for trying things out: buildings, roads and parks around a highway along `y = -100`.
Buildings 1 and 4 lie within 500 m of the highway, and building 3 lies across the small road along
`y = 700`. The parks are stored in degrees.
-/

namespace MapQuery.Memory.Town

/-- Coordinates in metres. -/
def metric : Crs := ⟨"EPSG:3006", .meters⟩

/-- Coordinates in degrees. -/
def geographic : Crs := ⟨"EPSG:4326", .degrees⟩

def fidField : Field := ⟨numberField, numberField, .int64⟩

/-- The field that tells the type of a building or a road. -/
def typeField : Field := ⟨"type", "Type", .string⟩

/-- A category of the legend of the buildings. -/
def category (value label : String) : Category := ⟨.single (.text value), label⟩

/-- A building with its number, bounds, type, year of construction and whether it is protected. -/
def building (number : Nat) (envelope : Envelope) (type : String) (year heritage : Int64) :
    Feature :=
  (((Feature.ofNumber number envelope).set "type" (.text type)).set "year_of_construction"
    (.integer year)).set "heritage" (.integer heritage)

/-- A road with its number, bounds, type and width. -/
def road (number : Nat) (envelope : Envelope) (type : String) (width : Float) : Feature :=
  ((Feature.ofNumber number envelope).set "type" (.text type)).set "width" (.real width)

def buildings : FeatureCollection where
  id := "buildings_fasdff3234"
  name := "Buildings"
  shortName := none
  keyField := some numberField
  fields :=
    [fidField, typeField, ⟨"year_of_construction", "Year of construction", .int32⟩,
      ⟨"heritage", "heritage", .int32⟩]
  classification := some
    ⟨"type", [category "res" "residential", category "ind" "industrial",
      category "com" "commercial", ⟨.null, "other"⟩]⟩
  kind := .polygon
  crs := metric
  features :=
    [building 1 ⟨0, 0, 10, 10⟩ "res" 1950 1, building 2 ⟨5000, 0, 5010, 10⟩ "ind" 1990 0,
      building 3 ⟨0, 695, 10, 705⟩ "com" 2001 0, building 4 ⟨100, 390, 110, 395⟩ "res" 1950 0]

def roads : FeatureCollection where
  id := "roads_fa4123"
  name := "Roads"
  shortName := none
  keyField := some numberField
  fields := [fidField, typeField, ⟨"width", "Width", .double⟩]
  classification := none
  kind := .line
  crs := metric
  features :=
    [road 1 ⟨-1000, -100, 1000, -100⟩ "highway" 20, road 2 ⟨-1000, 700, 1000, 700⟩ "small" 4.5]

def parks : FeatureCollection where
  id := "parks_7f1e"
  name := "Parks"
  shortName := some "green"
  keyField := some numberField
  fields := [fidField, ⟨"name", "name", .string⟩]
  classification := none
  kind := .polygon
  crs := geographic
  features := [(Feature.ofNumber 1 ⟨0, 0, 0.01, 0.01⟩).set "name" (.text "Central")]

/-- The project with all layers of the town. -/
def workspace : Workspace := .ofLayers [buildings, roads, parks]

end MapQuery.Memory.Town
