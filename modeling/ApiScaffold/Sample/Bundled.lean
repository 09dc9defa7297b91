/-
The samples that come with the program.
-/
import ApiScaffold.Files.Tree

namespace ApiScaffold

/-- People, their addresses and their jobs. -/
def personModel : List String :=
  ["@startuml",
   "class Person \x7b",
   "  +id: UUID",
   "  +name: String",
   "  +birthDate: date",
   "  +isActive: boolean",
   "  -internalNote: String",
   "  +greet(): void",
   "\x7d",
   "",
   "class Address \x7b",
   "  +street: String",
   "  +city: String",
   "  ~postalCode: String",
   "\x7d",
   "",
   "class Employee \x7b",
   "  +salary: number",
   "  #hiredAt: datetime",
   "\x7d",
   "",
   "interface Speakable \x7b",
   "  +speak(): void",
   "\x7d",
   "",
   "enum Gender \x7b",
   "  MALE",
   "  FEMALE",
   "\x7d",
   "",
   "Person \"1\" *-- \"1..*\" Address : lives at",
   "Person \"1..1\" --> \"1..1\" Gender",
   "Person ..|> Speakable",
   "Person <|-- Employee",
   "@enduml"]

/-- Orders, for the multiplicities of relations. -/
def orderModel : List String :=
  ["@startuml",
   "class Customer \x7b",
   "  +id: UUID",
   "  +email: email",
   "\x7d",
   "",
   "class Order \x7b",
   "  +id: UUID",
   "  +placedAt: datetime",
   "  +total: decimal",
   "  +status: OrderStatus",
   "\x7d",
   "",
   "class LineItem \x7b",
   "  +quantity: int",
   "  +unitPrice: double",
   "\x7d",
   "",
   "class Comment \x7b",
   "  +body: text",
   "\x7d",
   "",
   "class Tag \x7b",
   "  +label: String",
   "\x7d",
   "",
   "enum OrderStatus \x7b",
   "  PENDING",
   "  PAID",
   "  SHIPPED",
   "  CANCELLED",
   "\x7d",
   "",
   "Customer \"1\" -- \"many\" Order",
   "Order \"*\" -- \"1..*\" LineItem",
   "Order \"0..1\" --> Comment",
   "Order \"*\" -- \"many\" Tag",
   "@enduml"]

/-- A catalogue, for inheritance and interfaces. -/
def catalogModel : List String :=
  ["@startuml",
   "abstract class Publication \x7b",
   "  +id: UUID",
   "  +title: String",
   "  +publishedOn: date",
   "\x7d",
   "",
   "class Book \x7b",
   "  +isbn: String",
   "  +pages: int",
   "\x7d",
   "",
   "class Magazine \x7b",
   "  +issue: int",
   "\x7d",
   "",
   "class Branch \x7b",
   "  +name: String",
   "\x7d",
   "",
   "class Category \x7b",
   "  +name: String",
   "\x7d",
   "",
   "interface Borrowable \x7b",
   "  +borrow(memberId: UUID): boolean",
   "  +giveBack(): void",
   "\x7d",
   "",
   "Publication <|-- Book",
   "Publication <|-- Magazine",
   "Branch o-- \"0..*\" Book : stocks",
   "Book --> \"1..3\" Category",
   "Book ..|> Borrowable",
   "@enduml"]

/-- The bundled samples by file name. -/
def bundledSamples : List (String × FileEntry) :=
  [("uc01-person-model.plant", personModel),
   ("uc02-order-cardinality.plant", orderModel),
   ("uc03-library-catalog.plant", catalogModel)].map
    fun (name, lines) =>
      (name, .file (String.join (lines.map fun line => line ++ "\n")).toUTF8)

end ApiScaffold
