import OtelFleet.Store.Users

/-! # Roles, principals and tenant scope -/

namespace OtelFleet.Api

open Store

def roleViewer : String := "viewer"
def roleOperator : String := "operator"
def roleAdmin : String := "admin"

def level (role : String) : Nat :=
  if role = roleViewer then 1
  else if role = roleOperator then 2
  else if role = roleAdmin then 3
  else 0

def known (role : String) : Bool := level role ≠ 0

def atLeast (role min : String) : Bool := level role ≠ 0 && level min ≠ 0 && level min ≤ level role

def canMutate (role : String) : Bool := atLeast role roleOperator

theorem atLeast_admin_iff {role : String} : atLeast role roleAdmin ↔ role = roleAdmin := by
  unfold atLeast level
  split_ifs <;> simp_all [roleViewer, roleOperator, roleAdmin]

/-- What a handler answers instead of its result.  Every error that is neither a
    bad request nor a scope violation surfaces as a plain 500. -/
inductive ApiError where
  | badRequest (msg : String)
  | forbidden (msg : String)
  | notFound (msg : String)
  | conflict (msg : String)
  | internal
deriving DecidableEq

structure Principal where
  user : User
  allCustomers : Bool
  allowedCustomers : List Uuid := []

namespace Principal

def canAccessCustomer (p : Principal) (customerID : Option Uuid) : Bool :=
  p.allCustomers || customerID.any fun id => id ∈ p.allowedCustomers

end Principal

def requireCustomerAccess (principal : Option Principal) (customerID : Option Uuid) : Except ApiError Unit :=
  match principal with
  | none => .ok ()
  | some p =>
    if p.allCustomers then .ok ()
    else if p.canAccessCustomer customerID then .ok ()
    else .error (.forbidden "you do not have access to this customer")

/-- The customers a request is limited to; `none` means all of them. -/
def customerScope (principal : Option Principal) : Option (List Uuid) :=
  principal.bind fun p => if p.allCustomers then none else some p.allowedCustomers

/-- The scope part of the guard: admins are unscoped, and so is anyone without
    grants who is not managed by SCIM groups. -/
def sessionPrincipal (user : User) (grants : List Uuid) : Principal :=
  if atLeast user.role roleAdmin then ⟨user, true, []⟩
  else if grants = [] ∧ ¬ user.scimManaged then ⟨user, true, []⟩
  else ⟨user, false, grants⟩

end OtelFleet.Api
