/-
Reading a diagram. Blocks give the classes, interfaces and enumerations
with their bodies, and an independent pass over all lines gives the
relations. Text that cannot be read is left out; only a numeral beyond
the limit makes the reading fail.
-/
import ApiScaffold.Diagram.Member
import ApiScaffold.Diagram.Relation

namespace ApiScaffold

/-- The entity of a block with members. -/
def Entity.ofBlock (kind : EntityKind) (b : Block) : Entity where
  name := String.ofList b.name
  kind := kind
  attributes := attributesOf b.body
  methods := methodsOf b.body

/-- The enumeration of a block. -/
def Enumeration.ofBlock (b : Block) : Enumeration where
  name := String.ofList b.name
  values := (enumValues b.body).map String.ofList

namespace Diagram

/-- The blocks with one keyword, in order. -/
def blocksOf (k : Keyword) (blocks : List Block) : List Block :=
  blocks.filter (·.keyword == k)

/-- The diagram that blocks and relations make. -/
def ofParts (blocks : List Block) (relations : List Relation) : Diagram where
  classes := (blocksOf .classBlock blocks).map (Entity.ofBlock .classEntity)
  interfaces := (blocksOf .interfaceBlock blocks).map (Entity.ofBlock .interfaceEntity)
  enums := (blocksOf .enumBlock blocks).map Enumeration.ofBlock
  relations := relations

/-- Read a normalised text. -/
def ofNormalized (text : List Char) : Except NumeralTooLong Diagram :=
  (findRelations text).map (ofParts (blocksIn text))

/-- Read a diagram text. -/
def parse (text : String) : Except NumeralTooLong Diagram :=
  ofNormalized (normalize text.toList)

end Diagram

end ApiScaffold
