import Wayfare.Block
import Wayfare.Category.Taxonomy
import Wayfare.Fault

/-! # Categories and blocks

Which block of the day a category prefers, and which categories a block takes
when it is filled up.
-/

namespace Wayfare.Category

def preferredBlocks : List (String × Block) :=
  [("restaurant", .lunch), ("cafe", .afternoon), ("attraction", .morning),
   ("shopping", .afternoon), ("night_view", .evening), ("culture", .morning),
   ("nature", .morning), ("activity", .afternoon), ("theme_park", .afternoon)]

def blockCategories : Block → List String
  | .breakfast => ["cafe", "restaurant"]
  | .morning => ["attraction", "culture", "nature"]
  | .lunch => ["restaurant"]
  | .afternoon => ["cafe", "shopping", "activity", "theme_park"]
  | .dinner => ["restaurant"]
  | .evening => ["night_view", "shopping"]

/-- The block that a category text prefers; a text without a preference goes to the afternoon. -/
def preferredBlock (category : String) : Block :=
  ((ofText? category).bind fun key => preferredBlocks.lookup key).getD .afternoon

def fits (p : Place) (b : Block) : Bool :=
  (blockCategories b).any (placeMatches p)

/-- The block in which a place is visited: that of its fixed time, else that of its category. A fixed
time that is not a moment is a fault. -/
def visitBlock (p : Place) : Result Block :=
  match p.fixedTime with
  | .null => preferredBlock <$> p.readCategory
  | .moment m => .ok (Block.ofHour (Int.ofNat m.hour))
  | _ => .error .missingMember

end Wayfare.Category
