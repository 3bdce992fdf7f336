import Wayfare.Category.Keyword
import Wayfare.Place

/-! # Taxonomy

The fixed list of categories with the keywords that tell them. A free text
belongs to a category when it holds one of the category's keywords.
-/

namespace Wayfare.Category

open Wayfare.Text

/-- The categories, each with its keywords, in the order of a shortlist. -/
def taxonomy : List (String × List String) :=
  [("attraction", ["attraction", "tourist", "landmark", "sightseeing", "관광"]),
   ("restaurant", ["restaurant", "food", "dining", "맛집", "음식", "식당"]),
   ("cafe", ["cafe", "coffee", "bakery", "dessert", "카페"]),
   ("shopping", ["shopping", "market", "mall", "department", "쇼핑", "시장"]),
   ("activity", ["activity", "experience", "spa", "액티비티"]),
   ("culture", ["culture", "museum", "heritage", "gallery", "palace", "temple", "문화"]),
   ("nature", ["nature", "park", "mountain", "beach", "garden", "자연"]),
   ("theme_park", ["theme_park", "theme park", "amusement", "zoo", "aquarium", "테마파크"]),
   ("night_view", ["night_view", "night view", "nightlife", "observatory", "야경"]),
   ("accommodation", ["accommodation", "hotel", "lodging", "hostel", "숙박"])]

def categories : List String :=
  taxonomy.map (·.1)

/-- The keywords of a category; any other name is its own keyword. -/
def keywordsOf (category : String) : List String :=
  (taxonomy.lookup category).getD [category]

def textMatches (text category : String) : Bool :=
  !isBlank text && (Keywords.ofList (keywordsOf category)).occursIn text

def placeMatches (p : Place) (category : String) : Bool :=
  textMatches p.categoryText category

/-- The categories in the order in which a text is tried for them. Those of several words come first,
so that a theme park is not taken for a park. -/
def matchOrder : List String :=
  let first := ["theme_park", "night_view"]
  first ++ categories.filter fun c => !first.contains c

/-- The category of a free text: the category of that name, else the first with a keyword in it. -/
def ofText? (text : String) : Option String :=
  let key := lower (trim text)
  if key.isEmpty then none
  else if categories.contains key then some key
  else matchOrder.find? fun c => (Keywords.ofList (keywordsOf c)).occursIn key

end Wayfare.Category
