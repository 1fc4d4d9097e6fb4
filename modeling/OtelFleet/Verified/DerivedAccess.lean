import Mathlib.Data.List.Induction
import OtelFleet.Store.Groups

/-! # The access that groups give

The role of a user is the highest one that a group of the user names, else the default
role; the customers are those that the other groups name.  `derive` computes that, in
one pass over the names.  A change of one group changes the names of its members only.
-/

namespace OtelFleet.Verified.DerivedAccess

open Api Store Store.Directory

/-! ## What the names say -/

variable {db : Directory}

section

variable (mapping : SCIMMapping)

def isRoleGroup (name : String) : Prop := mapping.rolePrefix ≠ "" ∧ hasPrefix name mapping.rolePrefix = true

def isCustomerGroup (name : String) : Prop :=
  ¬ isRoleGroup mapping name ∧ mapping.customerPrefix ≠ "" ∧ hasPrefix name mapping.customerPrefix = true

def NamesRole (names : List String) (role : String) : Prop :=
  known role = true ∧ ∃ name ∈ names, isRoleGroup mapping name ∧ trimPrefix name mapping.rolePrefix = role

/-- The highest known role that the groups name, else the default role. -/
def DerivedRole (names : List String) (role : String) : Prop :=
  NamesRole mapping names role ∧ (∀ other, NamesRole mapping names other → level other ≤ level role) ∨
    (∀ other, ¬ NamesRole mapping names other) ∧ role = mapping.defaultRole

/-- A customer, not deleted, that one of the groups names. -/
def DerivedGrant (db : Directory) (names : List String) (customerID : Uuid) : Prop :=
  ∃ name ∈ names, isCustomerGroup mapping name ∧
    ∃ customer, db.customerBySlug (trimPrefix name mapping.customerPrefix) = some customer ∧ customer.id = customerID

/-- The role and the grants are those of the groups, unless a demotion was skipped. -/
structure Follows (skipped : Prop) (db : Directory) (user : User) : Prop where
  role : DerivedRole mapping (db.groupNames user.id) user.role ∨ skipped ∧ user.role = roleAdmin
  grants : ∀ customerID, ⟨user.id, customerID⟩ ∈ db.grants ↔ DerivedGrant mapping db (db.groupNames user.id) customerID

/-- A user whom SCIM manages has the access of the groups. -/
def Settled (skipped : Prop) (db : Directory) (id : Uuid) : Prop :=
  ∀ user, db.user? id = some user → user.scimManaged = true → Follows mapping skipped db user

/-! ## The derivation computes it -/

variable {mapping} {names : List String} {name role : String}

theorem derive_append : derive mapping (names ++ [name]) = (derive mapping names).add mapping name := by
  simp only [derive, List.foldl_append, List.foldl_cons, List.foldl_nil]

theorem add_roleGroup (isRole : isRoleGroup mapping name) (derivation : Derivation) :
    derivation.add mapping name =
      { derivation with
        hasMapped := true
        bestRole :=
          if known (trimPrefix name mapping.rolePrefix) ∧ level (trimPrefix name mapping.rolePrefix) > level derivation.bestRole
          then trimPrefix name mapping.rolePrefix else derivation.bestRole } :=
  if_pos isRole

theorem add_other (notRole : ¬ isRoleGroup mapping name) (derivation : Derivation) :
    derivation.add mapping name =
      if mapping.customerPrefix ≠ "" ∧ hasPrefix name mapping.customerPrefix then
        { derivation with hasMapped := true, slugs := derivation.slugs ++ [trimPrefix name mapping.customerPrefix] }
      else derivation :=
  if_neg notRole

theorem namesRole_append :
    NamesRole mapping (names ++ [name]) role ↔
      NamesRole mapping names role ∨ known role = true ∧ isRoleGroup mapping name ∧ trimPrefix name mapping.rolePrefix = role := by
  simp only [NamesRole, List.mem_append, List.mem_singleton, or_and_right, exists_or, and_or_left, exists_eq_left]

theorem not_namesRole_nil : ¬ NamesRole mapping [] role := by
  rintro ⟨_, name, member, _⟩
  cases member

def Best (mapping : SCIMMapping) (names : List String) (best : String) : Prop :=
  best = "" ∧ (∀ other, ¬ NamesRole mapping names other) ∨
    NamesRole mapping names best ∧ ∀ other, NamesRole mapping names other → level other ≤ level best

theorem level_pos (isKnown : known role = true) : 0 < level role := by
  unfold known at isKnown
  exact Nat.pos_of_ne_zero (by simpa using isKnown)

theorem Best.le {best other : String} (isBest : Best mapping names best) (named : NamesRole mapping names other) :
    level other ≤ level best := by
  rcases isBest with ⟨_, none⟩ | ⟨_, highest⟩
  · exact absurd named (none other)
  · exact highest other named

theorem best_bestRole (mapping : SCIMMapping) (names : List String) : Best mapping names (derive mapping names).bestRole := by
  induction names using List.reverseRecOn with
  | nil => exact Or.inl ⟨rfl, fun _ => not_namesRole_nil⟩
  | append_singleton names name ih =>
    rw [derive_append]
    by_cases isRole : isRoleGroup mapping name
    · rw [add_roleGroup isRole]
      dsimp only
      split
      · -- the new role is higher than all before
        rename_i higher
        refine Or.inr ⟨namesRole_append.mpr (Or.inr ⟨higher.1, isRole, rfl⟩), ?_⟩
        intro other named
        rcases namesRole_append.mp named with before | ⟨_, _, rfl⟩
        · have le := ih.le before
          omega
        · exact le_rfl
      · -- it is not known, or the best one is at least as high
        rename_i notHigher
        rcases ih with ⟨isEmpty, none⟩ | ⟨named, highest⟩
        · refine Or.inl ⟨isEmpty, ?_⟩
          intro other named
          rcases namesRole_append.mp named with before | ⟨isKnown, _, rfl⟩
          · exact none other before
          · apply notHigher
            rw [isEmpty]
            exact ⟨isKnown, level_pos isKnown⟩
        · refine Or.inr ⟨namesRole_append.mpr (Or.inl named), ?_⟩
          intro other namedThen
          rcases namesRole_append.mp namedThen with before | ⟨isKnown, _, rfl⟩
          · exact highest other before
          · exact Nat.le_of_not_lt fun higher => notHigher ⟨isKnown, higher⟩
    · have same : ∀ other, NamesRole mapping (names ++ [name]) other ↔ NamesRole mapping names other := by
        intro other
        rw [namesRole_append]
        exact or_iff_left fun named => isRole named.2.1
      have sameBest : ((derive mapping names).add mapping name).bestRole = (derive mapping names).bestRole := by
        rw [add_other isRole]
        split <;> rfl
      rw [sameBest]
      simpa only [Best, same] using ih

theorem derivedRole_role (mapping : SCIMMapping) (names : List String) :
    DerivedRole mapping names ((derive mapping names).role mapping) := by
  have isBest := best_bestRole mapping names
  unfold Derivation.role
  split
  · rename_i isEmpty
    rw [isEmpty] at isBest
    rcases isBest with ⟨_, none⟩ | ⟨named, _⟩
    · exact Or.inr ⟨none, rfl⟩
    · -- the empty role is not known
      exact absurd named.1 (by decide)
  · rename_i notEmpty
    rcases isBest with ⟨isEmpty, _⟩ | highest
    · exact absurd isEmpty notEmpty
    · exact Or.inl highest

theorem known_role (isKnown : known mapping.defaultRole = true) (names : List String) :
    known ((derive mapping names).role mapping) = true := by
  rcases derivedRole_role mapping names with ⟨named, _⟩ | ⟨_, same⟩
  · exact named.1
  · rw [same]
    exact isKnown

theorem mem_slugs {slug : String} :
    slug ∈ (derive mapping names).slugs ↔
      ∃ name ∈ names, isCustomerGroup mapping name ∧ trimPrefix name mapping.customerPrefix = slug := by
  induction names using List.reverseRecOn with
  | nil => simp [derive]
  | append_singleton names name ih =>
    rw [derive_append]
    simp only [List.mem_append, List.mem_singleton, or_and_right, exists_or, exists_eq_left]
    rw [← ih]
    by_cases isRole : isRoleGroup mapping name
    · rw [add_roleGroup isRole]
      simp [isCustomerGroup, isRole]
    · rw [add_other isRole]
      split
      · rename_i isCustomer
        simp [isCustomerGroup, isRole, isCustomer, eq_comm]
      · rename_i notCustomer
        simp only [isCustomerGroup, isRole, not_false_eq_true, true_and, notCustomer, false_and, or_false]

theorem derivedGrant_iff {customerID : Uuid} : DerivedGrant mapping db names customerID ↔
      ∃ slug ∈ (derive mapping names).slugs, ∃ customer, db.customerBySlug slug = some customer ∧ customer.id = customerID := by
  constructor
  · rintro ⟨name, member, isCustomer, found⟩
    exact ⟨_, mem_slugs.mpr ⟨name, member, isCustomer, rfl⟩, found⟩
  · rintro ⟨slug, isSlug, found⟩
    obtain ⟨name, member, isCustomer, rfl⟩ := mem_slugs.mp isSlug
    exact ⟨name, member, isCustomer, found⟩

end

/-! ## What the access of a user depends on -/

structure SameAccess (before after : Directory) (id : Uuid) : Prop where
  row : after.user? id = before.user? id
  grants : ∀ customerID, ⟨id, customerID⟩ ∈ after.grants ↔ ⟨id, customerID⟩ ∈ before.grants

theorem sameAccess_refl (db : Directory) (id : Uuid) : SameAccess db db id := ⟨rfl, fun _ => Iff.rfl⟩

theorem SameAccess.trans {a b c : Directory} {id : Uuid} (first : SameAccess a b id) (second : SameAccess b c id) :
    SameAccess a c id :=
  ⟨second.row.trans first.row, fun customerID => (second.grants customerID).trans (first.grants customerID)⟩

theorem Settled.congr {mapping : SCIMMapping} {skipped : Prop} {before after : Directory} {id : Uuid}
    (settled : Settled mapping skipped before id) (same : SameAccess before after id)
    (sameNames : after.groupNames id = before.groupNames id) (sameCustomers : after.customers = before.customers) :
    Settled mapping skipped after id := by
  intro user found managed
  obtain rfl : user.id = id := user?_id found
  rw [same.row] at found
  obtain ⟨role, grants⟩ := settled user found managed
  have sameGrant : ∀ customerID, DerivedGrant mapping after (before.groupNames user.id) customerID ↔
      DerivedGrant mapping before (before.groupNames user.id) customerID := by
    intro customerID
    simp only [DerivedGrant, customerBySlug, sameCustomers]
  constructor
  · rw [sameNames]
    exact role
  · intro customerID
    rw [sameNames, same.grants, sameGrant]
    exact grants customerID

theorem Settled.weaken {mapping : SCIMMapping} {skipped skipped' : Prop} {id : Uuid}
    (settled : Settled mapping skipped db id) (implies : skipped → skipped') : Settled mapping skipped' db id := by
  intro user found managed
  obtain ⟨role, grants⟩ := settled user found managed
  exact ⟨role.imp_right (And.imp_left implies), grants⟩

/-! ## Changes of one group -/

theorem mem_membersOf {groupID userID : Uuid} : userID ∈ db.membersOf groupID ↔ ⟨groupID, userID⟩ ∈ db.members := by
  simp only [membersOf, List.mem_map, List.mem_filter, decide_eq_true_eq]
  constructor
  · rintro ⟨⟨_, _⟩, ⟨member, rfl⟩, rfl⟩
    exact member
  · exact fun member => ⟨_, ⟨member, rfl⟩, rfl⟩

/-- Beside the row of one group and its members all is the same. -/
structure Regroups (groupID : Uuid) (before after : Directory) : Prop where
  users : after.users = before.users
  grants : after.grants = before.grants
  customers : after.customers = before.customers
  groups : (after.groups.filter fun group => group.id ≠ groupID) = before.groups.filter fun group => group.id ≠ groupID
  members : (after.members.filter fun member => member.groupID ≠ groupID) =
    before.members.filter fun member => member.groupID ≠ groupID

namespace Regroups

variable {groupID : Uuid} {before after : Directory}

theorem refl (groupID : Uuid) (db : Directory) : Regroups groupID db db := ⟨rfl, rfl, rfl, rfl, rfl⟩

theorem trans {last : Directory} (first : Regroups groupID before after) (second : Regroups groupID after last) :
    Regroups groupID before last where
  users := second.users.trans first.users
  grants := second.grants.trans first.grants
  customers := second.customers.trans first.customers
  groups := second.groups.trans first.groups
  members := second.members.trans first.members

section

variable (regroups : Regroups groupID before after)
include regroups

theorem sameAccess (id : Uuid) : SameAccess before after id where
  row := by simp only [user?, regroups.users]
  grants customerID := by rw [regroups.grants]

theorem group?_eq {other : Uuid} (distinct : other ≠ groupID) : after.group? other = before.group? other := by
  have kept (db : Directory) : (db.groups.filter fun group => group.id ≠ groupID).find? (fun group => group.id = other) = db.group? other :=
    Data.find?_filter_of_imp fun _ _ isOther => decide_eq_true (of_decide_eq_true isOther ▸ distinct)
  rw [← kept, ← kept, regroups.groups]

theorem membersOf_eq {other : Uuid} (distinct : other ≠ groupID) :
    after.membersOf other = before.membersOf other := by
  have kept (db : Directory) :
      ((db.members.filter fun member => member.groupID ≠ groupID).filter fun member => member.groupID = other) =
        db.members.filter fun member => member.groupID = other :=
    Data.filter_filter_of_imp fun _ _ isOther => decide_eq_true (of_decide_eq_true isOther ▸ distinct)
  rw [membersOf, membersOf, ← kept, ← kept, regroups.members]

end

theorem groupNames_of_absent {userID : Uuid} (absent : userID ∉ db.membersOf groupID) : db.groupNames userID =
      ((db.members.filter fun member => member.groupID ≠ groupID).filter fun member => member.userID = userID).flatMap fun member =>
        ((db.groups.filter fun group => group.id ≠ groupID).filter fun group => group.id = member.groupID).map SCIMGroup.displayName := by
  have elsewhere : ∀ member ∈ db.members, member.userID = userID → member.groupID ≠ groupID := by
    rintro ⟨_, _⟩ member rfl rfl
    exact absent (mem_membersOf.mpr member)
  rw [Data.filter_filter_of_imp fun member isMember isUser => decide_eq_true (elsewhere member isMember (of_decide_eq_true isUser))]
  apply List.flatMap_congr
  intro member isMember
  obtain ⟨isRow, isUser⟩ := List.mem_filter.mp isMember
  have distinct := elsewhere member isRow (of_decide_eq_true isUser)
  rw [Data.filter_filter_of_imp fun _ _ isGroup => decide_eq_true (of_decide_eq_true isGroup ▸ distinct)]

theorem groupNames_eq (regroups : Regroups groupID before after) {userID : Uuid} (absent : userID ∉ before.membersOf groupID)
    (absentAfter : userID ∉ after.membersOf groupID) : after.groupNames userID = before.groupNames userID := by
  rw [groupNames_of_absent absent, groupNames_of_absent absentAfter, regroups.groups, regroups.members]

/-! ## The changes that statements make -/

variable (db : Directory)

theorem addGroup (group : SCIMGroup) : Regroups group.id db (db.addGroup group) := by
  unfold Directory.addGroup
  split
  · exact ⟨rfl, rfl, rfl, by simp, rfl⟩
  · exact refl _ _

theorem changeGroup (id : Uuid) (change : SCIMGroup → SCIMGroup) : Regroups id db (db.changeGroup id change) where
  users := rfl
  grants := rfl
  customers := rfl
  members := rfl
  groups := by
    simp only [Directory.changeGroup, List.filter_map]
    have same : ∀ group ∈ db.groups.filter ((fun group => decide (group.id ≠ id)) ∘ regrouped id change), regrouped id change group = group := by
      intro group member
      have distinct : group.id ≠ id := by simpa using (List.mem_filter.mp member).2
      exact if_neg distinct
    rw [List.map_congr_left same, List.map_id']
    congr 1
    funext group
    simp

theorem removeGroup (id : Uuid) : Regroups id db (db.removeGroup id) :=
  ⟨rfl, rfl, rfl, by simp [Directory.removeGroup], by simp [Directory.removeGroup]⟩

theorem addMember (groupID userID : Uuid) : Regroups groupID db (db.addMember ⟨groupID, userID⟩) := by
  unfold Directory.addMember
  split
  · exact refl _ _
  · exact ⟨rfl, rfl, rfl, rfl, by simp⟩

theorem removeMember (groupID userID : Uuid) : Regroups groupID db (db.removeMember ⟨groupID, userID⟩) := by
  refine ⟨rfl, rfl, rfl, rfl, ?_⟩
  simp only [Directory.removeMember, List.filter_filter]
  congr 1
  funext member
  by_cases isGroup : member.groupID = groupID
  · simp [isGroup]
  · have distinct : member ≠ ⟨groupID, userID⟩ := by
      rintro rfl
      exact isGroup rfl
    simp [distinct]

theorem clearMembers (groupID : Uuid) : Regroups groupID db (db.clearMembers groupID) :=
  ⟨rfl, rfl, rfl, rfl, by simp [Directory.clearMembers]⟩

end Regroups

end OtelFleet.Verified.DerivedAccess
