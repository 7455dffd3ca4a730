import Edm.Accessor.Typed
import Edm.Service

/-!
This module contains a small shop: orders with their lines, the customers who placed them, and
events. Between them they have every kind of field.
-/

namespace Edm.Shop

structure LineItem where
  sku : String := ""
  quantity : Int32 := 0
  tags : List String := []
deriving DecidableEq

structure Address where
  street : String := ""
  city : String := ""
deriving DecidableEq

inductive Status where
  | open
  | shipped
  | cancelled
deriving DecidableEq, Repr

namespace Status

def name : Status → String
  | .open => "Open"
  | .shipped => "Shipped"
  | .cancelled => "Cancelled"

def ofName (name : String) : Except Failure Status :=
  match name with
  | "Open" => .ok .open
  | "Shipped" => .ok .shipped
  | "Cancelled" => .ok .cancelled
  | other => .error (.invalidRecord (.unknownStatus other))

end Status

mutual

structure Customer where
  id : String := ""
  name : String := ""
  address : Option Address := none
  orders : List Order := []

structure Order where
  id : Int32 := 0
  total : Decimal := .zero
  status : Status := .open
  note : Option String := none
  items : List LineItem := []
  customer : Option Customer := none
  /-- The number of lines, which is not shown. -/
  lineCount : Nat := 0

end

structure OrderLine where
  orderId : Int32 := 0
  productId : Int64 := 0
  quantity : Int16 := 0

structure Event where
  code : String := ""
  /-- The position among all events, from which the key is computed. -/
  sequence : Int64 := 0

inductive Row where
  | lineItem (r : LineItem)
  | address (r : Address)
  | customer (r : Customer)
  | order (r : Order)
  | orderLine (r : OrderLine)
  | event (r : Event)

def lineItemShape : Shape := ⟨"line-item"⟩
def addressShape : Shape := ⟨"address"⟩
def customerShape : Shape := ⟨"customer"⟩
def orderShape : Shape := ⟨"order"⟩
def orderLineShape : Shape := ⟨"order-line"⟩
def eventShape : Shape := ⟨"event"⟩

section Kinds

def lineItem : Kind Row LineItem where
  name := "LineItem"
  inject := .lineItem
  project?
    | .lineItem r => some r
    | _ => none

def address : Kind Row Address where
  name := "Address"
  inject := .address
  project?
    | .address r => some r
    | _ => none

def customer : Kind Row Customer where
  name := "Customer"
  inject := .customer
  project?
    | .customer r => some r
    | _ => none

def order : Kind Row Order where
  name := "Order"
  inject := .order
  project?
    | .order r => some r
    | _ => none

def orderLine : Kind Row OrderLine where
  name := "OrderLine"
  inject := .orderLine
  project?
    | .orderLine r => some r
    | _ => none

def event : Kind Row Event where
  name := "Event"
  inject := .event
  project?
    | .event r => some r
    | _ => none

end Kinds

/-! ### Accessors -/

section Accessors

-- The rows of the shop are within the contents of all records.
variable {α : Type} (rows : Kind α Row)

def lineItemAccessor : Accessor α :=
  .typed (rows.within lineItem) {} [
    (Member.simple "Sku" .string .string (·.sku) ({ · with sku := · })).notNull,
    (Member.simple "Qty" .int32 .int32 (·.quantity) ({ · with quantity := · })).notNull,
    .simples "Tags" .string .string (·.tags) ({ · with tags := · })]

def addressAccessor : Accessor α :=
  .typed (rows.within address) {} [
    .simple "Street" .string .string (·.street) ({ · with street := · }),
    .simple "City" .string .string (·.city) ({ · with city := · })]

def orderAccessor : Accessor α :=
  .typed (rows.within order) {} [
    (Member.simple "Id" .int32 .int32 (·.id) ({ · with id := · })).notNull,
    (Member.simple "Total" .decimal .decimal (·.total) ({ · with total := · })).notNull,
    .enumeration "Status" "OrderStatus" (·.status.name)
      (fun o name => return { o with status := ← Status.ofName name }),
    .simple "Note" .string Scalar.string.optional (·.note) ({ · with note := · }),
    .records "Items" lineItemShape (rows.within lineItem) (·.items) ({ · with items := · }),
    .record "Customer" customerShape (rows.within customer) (·.customer)
      ({ · with customer := · })]

def customerAccessor : Accessor α :=
  .typed (rows.within customer) {} [
    (Member.simple "Id" .string .string (·.id) ({ · with id := · })).notNull,
    .simple "Name" .string .string (·.name) ({ · with name := · }),
    .record "Address" addressShape (rows.within address) (·.address) ({ · with address := · }),
    .records "Orders" orderShape (rows.within order) (·.orders) ({ · with orders := · })]

def orderLineAccessor : Accessor α :=
  .typed (rows.within orderLine) {} [
    (Member.simple "OrderId" .int32 .int32 (·.orderId) ({ · with orderId := · })).notNull,
    (Member.simple "ProductId" .int64 .int64 (·.productId) ({ · with productId := · })).notNull,
    .simple "Quantity" .int16 .int16 (·.quantity) ({ · with quantity := · })]

def eventAccessor : Accessor α :=
  .typed (rows.within event) {} [
    .simple "Code" .string .string (·.code) ({ · with code := · }),
    .simple "Sequence" .int64 .int64 (·.sequence) ({ · with sequence := · })]

def accessor : Row → Accessor α
  | .lineItem _ => lineItemAccessor rows
  | .address _ => addressAccessor rows
  | .customer _ => customerAccessor rows
  | .order _ => orderAccessor rows
  | .orderLine _ => orderLineAccessor rows
  | .event _ => eventAccessor rows

def eventKey (e : Event) : Value := .int64 (e.sequence * 100)

/-- The name under which the hooks of orders are traced. -/
def orderHooksLabel : String := "orders"

def orderHooks : Hooks α where
  label := orderHooksLabel
  hook?
    | .before => some fun _ data => .ok data
    | .after => some fun _ data =>
      let kind := rows.within order
      match kind.project? data with
      | some o => .ok (kind.inject { o with lineCount := o.items.length })
      | none => .ok data

end Accessors

/-! ### Records -/

def customers : List Customer := [
  { id := "ALFKI"
    name := "Alfreds Futterkiste"
    address := some ⟨"Obere Str. 57", "Berlin"⟩ },
  { id := "ANATR"
    name := "Ana Trujillo" }]

def ofItems (id : Int32) (total : Decimal) (items : List LineItem) : Order :=
  { id, total, items, lineCount := items.length }

/-- Three orders, two of which have the same total. -/
def referenceOrders : List Order := [
  ofItems 1 ⟨false, 100, 1, by decide, by decide⟩ [{ sku := "A-1", quantity := 1 }],
  ofItems 2 ⟨false, 255, 1, by decide, by decide⟩
    [{ sku := "B-1", quantity := 2 }, { sku := "B-2", quantity := 1 }],
  ofItems 3 ⟨false, 255, 1, by decide, by decide⟩ [{ sku := "C-1", quantity := 5 }]]

def placedBy (orders : List Order) (c : Customer) : List Order :=
  orders.map fun o => { o with customer := some { c with orders := [] } }

def customersWith (orders : List Order) : List Customer :=
  customers.map fun c =>
    let placed := orders.filter fun o => o.customer.any fun other => other.id == c.id
    { c with orders := placed.map fun o => { o with customer := none } }

def orderLines : List OrderLine := [⟨1, 7, 2⟩, ⟨1, 9, 1⟩, ⟨2, 7, 4⟩]

def events : List Event := [⟨"created", 1⟩, ⟨"paid", 2⟩, ⟨"shipped", 3⟩]

/-! ### The service -/

section

variable {α : Type} (rows : Kind α Row)

def records (shape : Shape) (kind : Kind Row τ) (rs : List τ) : List (Record α) :=
  rs.map fun r => ⟨shape, (rows.within kind).inject r⟩

def setOrders (orders : List Order) : ServiceM α Unit := do
  Service.setRecords "Orders" (records rows orderShape order orders)
  Service.setRecords "Customers" (records rows customerShape customer (customersWith orders))

def register (orders : List Order) : ServiceM α Unit := do
  Service.registerComplexType ⟨"LineItem", lineItemShape, lineItemAccessor rows, none⟩
  Service.registerComplexType ⟨"Address", addressShape, addressAccessor rows, none⟩
  Service.registerSet
    ⟨"Orders", "Order", orderShape, orderAccessor rows, ["Id"], [], some (orderHooks rows)⟩
  Service.registerSet
    ⟨"Customers", "Customer", customerShape, customerAccessor rows, ["Id"], [], none⟩
  Service.registerSet
    ⟨"OrderLines", "OrderLine", orderLineShape, orderLineAccessor rows, ["OrderId", "ProductId"],
      records rows orderLineShape orderLine orderLines, none⟩
  let eventEntry : SetEntry α :=
    ⟨"Events", "Event", eventShape, eventAccessor rows, [],
      records rows eventShape event events, none⟩
  Service.registerSet
    (eventEntry.keyedBy .int64 (Accessor.keyOf (rows.within event) eventKey))
  setOrders rows orders

def service (config : Config) (orders : List Order) : Service α :=
  ((register rows orders).run.run { config }).2

def hookCalls (stage : Stage) (s : Service α) : Nat :=
  s.calls.countP fun call => call.label == orderHooksLabel && call.stage == stage

end

end Edm.Shop
