/-!
# Usages

A usage is one occurrence of a symbol in a text, with the role it plays there.
-/

namespace CodeAtlas

/-- The role of an occurrence. -/
inductive UsageKind where
  | imported
  | exported
  /-- A call behind `new`. -/
  | constructor
  /-- A call of a member. -/
  | method
  /-- A member that is not called. -/
  | property
  /-- A call, or any mention that has no other role. -/
  | call
  deriving DecidableEq, Repr

namespace UsageKind

/-- The name of a kind. -/
def name : UsageKind → String
  | .imported => "import"
  | .exported => "export"
  | .constructor => "constructor"
  | .method => "method"
  | .property => "property"
  | .call => "call"

/-- All kinds in order. -/
def all : List UsageKind :=
  [.imported, .exported, .constructor, .method, .property, .call]

end UsageKind

/-- One occurrence of a symbol. -/
structure Usage where
  /-- The line, counted from one. -/
  line : Nat
  /-- The characters before the symbol on its line. -/
  column : Nat
  kind : UsageKind
  /-- The line without blanks at its ends. -/
  context : String
  /-- The line among its neighbours. -/
  fullContext : String
  /-- The function or class around the line. -/
  scope : Option String
  /-- What the occurrence is part of, in words. -/
  pattern : String
  deriving DecidableEq, Repr

end CodeAtlas
