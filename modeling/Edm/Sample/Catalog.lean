import Edm.Accessor.Typed
import Edm.Service

/-!
This module contains a small catalog: products with their categories and their suppliers.
-/

namespace Edm.Catalog

structure Address where
  street : String := ""
  city : String := ""
  country : String := ""
deriving DecidableEq

inductive Rating where
  | unrated
  | preferred
  | approved
deriving DecidableEq, Repr

namespace Rating

def name : Rating → String
  | .unrated => "Unrated"
  | .preferred => "Preferred"
  | .approved => "Approved"

def ofName (name : String) : Except Failure Rating :=
  match name with
  | "Unrated" => .ok .unrated
  | "Preferred" => .ok .preferred
  | "Approved" => .ok .approved
  | other => .error (.invalidRecord (.unknownRating other))

end Rating

structure Supplier where
  id : Int32 := 0
  name : String := ""
  address : Option Address := none
  rating : Rating := .unrated

structure Category where
  id : Int32 := 0
  name : String := ""
  tags : List String := []

structure Product where
  id : Int32 := 0
  name : String := ""
  price : Decimal := .zero
  unitsInStock : Option Int16 := none
  discontinued : Bool := false
  category : Option Category := none
  supplier : Option Supplier := none

inductive Row where
  | address (r : Address)
  | supplier (r : Supplier)
  | category (r : Category)
  | product (r : Product)

def addressShape : Shape := ⟨"address"⟩
def supplierShape : Shape := ⟨"supplier"⟩
def categoryShape : Shape := ⟨"category"⟩
def productShape : Shape := ⟨"product"⟩

section Kinds

def address : Kind Row Address where
  name := "Address"
  inject := .address
  project?
    | .address r => some r
    | _ => none

def supplier : Kind Row Supplier where
  name := "Supplier"
  inject := .supplier
  project?
    | .supplier r => some r
    | _ => none

def category : Kind Row Category where
  name := "Category"
  inject := .category
  project?
    | .category r => some r
    | _ => none

def product : Kind Row Product where
  name := "Product"
  inject := .product
  project?
    | .product r => some r
    | _ => none

end Kinds

/-! ### Accessors -/

section Accessors

-- The rows of the catalog are within the contents of all records.
variable {α : Type} (rows : Kind α Row)

def addressAccessor : Accessor α :=
  .typed (rows.within address) {} [
    .simple "Street" .string .string (·.street) ({ · with street := · }),
    .simple "City" .string .string (·.city) ({ · with city := · }),
    .simple "Country" .string .string (·.country) ({ · with country := · })]

def productAccessor : Accessor α :=
  .typed (rows.within product) {} [
    (Member.simple "ProductID" .int32 .int32 (·.id) ({ · with id := · })).notNull,
    .simple "ProductName" .string .string (·.name) ({ · with name := · }),
    .simple "UnitPrice" .decimal .decimal (·.price) ({ · with price := · }),
    .simple "UnitsInStock" .int16 Scalar.int16.optional (·.unitsInStock)
      ({ · with unitsInStock := · }),
    .simple "Discontinued" .boolean .boolean (·.discontinued) ({ · with discontinued := · }),
    .record "Category" categoryShape (rows.within category) (·.category)
      ({ · with category := · }),
    .record "Supplier" supplierShape (rows.within supplier) (·.supplier)
      ({ · with supplier := · })]

def categoryAccessor : Accessor α :=
  .typed (rows.within category) {} [
    (Member.simple "CategoryID" .int32 .int32 (·.id) ({ · with id := · })).notNull,
    .simple "CategoryName" .string .string (·.name) ({ · with name := · }),
    .simples "Tags" .string .string (·.tags) ({ · with tags := · })]

def supplierAccessor : Accessor α :=
  .typed (rows.within supplier) {} [
    (Member.simple "SupplierID" .int32 .int32 (·.id) ({ · with id := · })).notNull,
    .simple "CompanyName" .string .string (·.name) ({ · with name := · }),
    .record "Address" addressShape (rows.within address) (·.address) ({ · with address := · }),
    .enumeration "Rating" "Rating" (·.rating.name)
      (fun s name => return { s with rating := ← Rating.ofName name })]

end Accessors

/-! ### Records -/

def beverages : Category := ⟨1, "Beverages", ["drinks", "cold"]⟩
def condiments : Category := ⟨2, "Condiments", ["sauces"]⟩
def produce : Category := ⟨3, "Produce", []⟩

def categories : List Category := [beverages, condiments, produce]

def exoticLiquids : Supplier :=
  ⟨1, "Exotic Liquids", some ⟨"49 Gilbert St.", "London", "UK"⟩, .preferred⟩
def tokyoTraders : Supplier :=
  ⟨2, "Tokyo Traders", some ⟨"9-8 Sekimai", "Tokyo", "Japan"⟩, .approved⟩
def grandmaKelly : Supplier := ⟨3, "Grandma Kelly's Homestead", none, .unrated⟩

def suppliers : List Supplier := [exoticLiquids, tokyoTraders, grandmaKelly]

def priced (id : Int32) (name : String) (cents : Nat) (unitsInStock : Option Int16)
    (discontinued : Bool) (category : Category) (supplier : Supplier)
    (h : cents < Decimal.mantissaLimit := by decide) : Product :=
  ⟨id, name, ⟨false, cents, 2, h, by decide⟩, unitsInStock, discontinued, some category,
    some supplier⟩

def products : List Product := [
  priced 1 "Chai" 1800 (some 39) false beverages exoticLiquids,
  priced 2 "Chang" 1900 (some 17) false beverages exoticLiquids,
  priced 3 "Aniseed Syrup" 1000 (some 13) false condiments exoticLiquids,
  priced 4 "Chef Anton's Cajun Seasoning" 2200 none false condiments grandmaKelly,
  priced 5 "Chef Anton's Gumbo Mix" 2135 (some 0) true condiments grandmaKelly,
  priced 6 "Grandma's Boysenberry Spread" 2500 (some 120) false condiments grandmaKelly,
  priced 7 "Uncle Bob's Organic Dried Pears" 3000 (some 15) false produce grandmaKelly,
  priced 8 "Ikura" 3100 (some 31) false produce tokyoTraders]

/-! ### The service -/

section

variable {α : Type} (rows : Kind α Row)

def records (shape : Shape) (kind : Kind Row τ) (rs : List τ) : List (Record α) :=
  rs.map fun r => ⟨shape, (rows.within kind).inject r⟩

def register : ServiceM α Unit := do
  Service.registerComplexType ⟨"Address", addressShape, addressAccessor rows, none⟩
  Service.registerSet
    ⟨"Products", "Product", productShape, productAccessor rows, ["ProductID"],
      records rows productShape product products, none⟩
  Service.registerSet
    ⟨"Categories", "Category", categoryShape, categoryAccessor rows, ["CategoryID"],
      records rows categoryShape category categories, none⟩
  Service.registerSet
    ⟨"Suppliers", "Supplier", supplierShape, supplierAccessor rows, ["SupplierID"],
      records rows supplierShape supplier suppliers, none⟩

def service (config : Config) : Service α := ((register rows).run.run { config }).2

end

end Edm.Catalog
