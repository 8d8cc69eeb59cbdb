/-!
# Declaration blocks

A `Block` is a list of CSS declarations with distinct properties. `Block.set` replaces the value of
a property where it stands and appends a new property, so the first write of a property decides its
place and the last one its value; `ofList` and `extend` are repeated writes.
-/

namespace BorderCss

/-- One `property: value` pair. -/
structure Declaration where
  property : String
  value : String
deriving DecidableEq, Repr

/-- The declarations after one write. -/
def writeDeclaration (property value : String) : List Declaration → List Declaration
  | [] => [⟨property, value⟩]
  | d :: rest =>
    if d.property = property then ⟨property, value⟩ :: rest
    else d :: writeDeclaration property value rest

/-- A write keeps the properties in their order and adds a new one last. -/
theorem properties_writeDeclaration (property value : String) (ds : List Declaration) :
    (writeDeclaration property value ds).map Declaration.property =
      if property ∈ ds.map Declaration.property then ds.map Declaration.property
      else ds.map Declaration.property ++ [property] := by
  induction ds with
  | nil => simp [writeDeclaration]
  | cons d rest ih =>
    by_cases h : d.property = property
    · simp [writeDeclaration, h]
    · have h' : ¬ property = d.property := fun e => h e.symm
      simp only [writeDeclaration, h, if_false, List.map_cons, ih, List.mem_cons, h', false_or]
      split <;> simp

/-- Declarations in order, no property twice. -/
structure Block where
  declarations : List Declaration
  nodup : (declarations.map Declaration.property).Nodup
deriving DecidableEq, Repr

namespace Block

/-- The block without declarations. -/
def empty : Block := ⟨[], by simp⟩

instance : Inhabited Block := ⟨empty⟩

/-- `block` with `property` set to `value`. -/
def set (block : Block) (property value : String) : Block where
  declarations := writeDeclaration property value block.declarations
  nodup := by
    rw [properties_writeDeclaration]
    split
    · exact block.nodup
    · next h =>
      refine List.nodup_append.2 ⟨block.nodup, by simp, ?_⟩
      intro a ha b hb hab
      simp only [List.mem_singleton] at hb
      exact h (hb ▸ hab ▸ ha)

/-- `block` after writing each declaration in turn. -/
def setAll (block : Block) (declarations : List Declaration) : Block :=
  declarations.foldl (fun b d => b.set d.property d.value) block

/-- The block that a list of writes builds. -/
def ofList (declarations : List Declaration) : Block :=
  empty.setAll declarations

/-- `block` after writing every declaration of `other`. -/
def extend (block other : Block) : Block :=
  block.setAll other.declarations

/-- The value of a property. -/
def get? (block : Block) (property : String) : Option String :=
  (block.declarations.find? (·.property == property)).map (·.value)

/-- The property is set. -/
def contains (block : Block) (property : String) : Bool :=
  (block.get? property).isSome

/-- The number of declarations. -/
def size (block : Block) : Nat :=
  block.declarations.length

/-- No property is set. -/
def isEmpty (block : Block) : Bool :=
  block.declarations.isEmpty

/-- The properties in order. -/
def properties (block : Block) : List String :=
  block.declarations.map (·.property)

/-- The declarations as CSS text, without braces. -/
def text (block : Block) : String :=
  String.join (block.declarations.map fun d => d.property ++ ":" ++ d.value ++ ";")

end Block

end BorderCss
