import SpotGridBot.Lib.Outcome

/-!
# JSON documents

A parsed document, and the accessors of `Poco::JSON::Object` that the handlers use. A scalar is kept
as the text it converts to.
-/

namespace SpotGridBot.Core

inductive Json where
  | null
  | scalar (text : String)
  | array (elements : List Json)
  | object (members : List (String × Json))

abbrev Members := List (String × Json)

/-- `extract<Poco::JSON::Object::Ptr>`; `none` is an exception. -/
def Json.extract : Json → Option Members
  | object members => some members
  | _ => none

@[simp] theorem Json.extract_object (members : Members) : (object members).extract = some members :=
  rfl

section Elements
variable (extract : Json → Option Members)

/-- The conversion leaves the objects extractable. -/
def Keeps : Prop := ∀ members, extract (.object members) = some members

/-- The conversion makes structures of the objects, and `extract` throws on these. -/
def Drops : Prop := ∀ members, extract (.object members) = none

def Uniform : Prop := Keeps extract ∨ Drops extract

variable {σ : Type*} (body : σ → Members → Outcome σ)

def forObjects : σ → List Json → Outcome σ :=
  Outcome.forEach fun s element =>
    match extract element with
    | some obj => body s obj
    | none => .thrown s

variable {extract}

theorem Drops.not_keeps (drops : Drops extract) : ¬ Keeps extract := by
  intro keeps
  have both := keeps []
  rw [drops] at both
  contradiction

theorem keeps_extract : Keeps Json.extract := fun _ => rfl

theorem drops_none : Drops fun _ => none := fun _ => rfl

theorem forObjects_keeps (keeps : Keeps extract) (s : σ) (objs : List Members) :
    forObjects extract body s (objs.map .object) = Outcome.forEach body s objs := by
  induction objs generalizing s with
  | nil => rfl
  | cons obj objs ih =>
      unfold forObjects at ih ⊢
      rw [List.map_cons, Outcome.forEach_cons, keeps, Outcome.forEach_cons]
      dsimp only
      rw [funext ih]

theorem forObjects_drops (drops : Drops extract) (s : σ) (objs : List Members) :
    (forObjects extract body s (objs.map .object)).state = s := by
  cases objs with
  | nil => rfl
  | cons obj objs =>
      unfold forObjects
      rw [List.map_cons, Outcome.forEach_cons, drops]
      rfl

end Elements

namespace Members
variable (print : Json → String) (members : Members) (name : String)

/-- `convert<std::string>`; `print` is how an array or an object is written. -/
def convert : Json → Option String
  | .null => none
  | .scalar text => some text
  | nested => some (print nested)

def getValue : Option String := (members.lookup name).bind (convert print)

def optValue (default : String) : String := (getValue print members name).getD default

def has : Bool := (members.lookup name).isSome

def getArray : Option (List Json) :=
  match members.lookup name with
  | some (.array elements) => some elements
  | _ => none

end Members

/-- `JSONDocument::GetValue`: a member that is missing or null reads as the default of its type;
`convert` is `convert<T>`, and `none` an exception. -/
def JSONDocument.getValue {α : Type} (convert : Json → Option α) (default : α) (document : Members)
    (name : String) : Option α :=
  match document.lookup name with
  | none => some default
  | some .null => some default
  | some value => convert value

end SpotGridBot.Core
