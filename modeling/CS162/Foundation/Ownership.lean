/-!
# Owners of places

Places are in use or free, and some owners each have a region of places.  No
place belongs to two owners, and the places that belong to an owner are in
use.  A place may be in use without an owner.
-/

namespace CS162.Foundation

universe u v

/-- The regions of the owners are in use and do not overlap. -/
structure Owned {Owner : Type u} {Place : Type v}
    (owners : Owner → Prop) (region : Owner → Place → Prop) (used : Place → Prop) : Prop where
  covered : ∀ owner, owners owner → ∀ place, region owner place → used place
  disjoint :
    ∀ owner other, owners owner → owners other → owner ≠ other →
      ∀ place, region owner place → ¬region other place

namespace Owned

variable {Owner : Type u} {Place : Type v}
variable {owners owners' : Owner → Prop}
variable {region region' : Owner → Place → Prop}
variable {used used' : Place → Prop}

/-- Owners may go, and places may come into use. -/
theorem mono (owned : Owned owners region used) (fewer : ∀ owner, owners' owner → owners owner)
    (more : ∀ place, used place → used' place) :
    Owned owners' region used' := by
  constructor
  · intro owner here place inside
    exact more place (owned.covered owner (fewer owner here) place inside)
  · intro owner other here there
    exact owned.disjoint owner other (fewer owner here) (fewer other there)

/-- Only the regions of the owners matter. -/
theorem congr (owned : Owned owners region used)
    (same : ∀ owner, owners owner → ∀ place, region' owner place ↔ region owner place) :
    Owned owners region' used := by
  constructor
  · intro owner here place inside
    exact owned.covered owner here place ((same owner here place).mp inside)
  · intro owner other here there different place inside outside
    exact
      owned.disjoint owner other here there different place
        ((same owner here place).mp inside)
        ((same other there place).mp outside)

/-- A new owner takes places that no owner has. -/
theorem insert (owned : Owned owners region used) (fresh : Owner)
    (grown : ∀ owner, owners' owner → owner = fresh ∨ owners owner)
    (taken : ∀ place, region fresh place → used place)
    (free :
      ∀ owner, owners owner → owner ≠ fresh → ∀ place, region owner place → ¬region fresh place) :
    Owned owners' region used := by
  constructor
  · intro owner here place inside
    rcases grown owner here with rfl | old
    · exact taken place inside
    · exact owned.covered owner old place inside
  · intro owner other here there different place inside outside
    rcases grown owner here with rfl | old
    · rcases grown other there with rfl | oldOther
      · exact different rfl
      · exact free other oldOther (Ne.symm different) place outside inside
    · rcases grown other there with rfl | oldOther
      · exact free owner old different place inside outside
      · exact owned.disjoint owner other old oldOther different place inside outside

/-- Places that belong to no remaining owner go out of use. -/
theorem release (owned : Owned owners region used) (fewer : ∀ owner, owners' owner → owners owner)
    (kept : ∀ owner, owners' owner → ∀ place, region owner place → used place → used' place) :
    Owned owners' region used' := by
  constructor
  · intro owner here place inside
    exact kept owner here place inside (owned.covered owner (fewer owner here) place inside)
  · intro owner other here there
    exact owned.disjoint owner other (fewer owner here) (fewer other there)

end Owned

end CS162.Foundation
