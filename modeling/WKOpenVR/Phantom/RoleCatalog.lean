import Mathlib.Data.Nat.Notation

/-!
# Body roles

The roles of trackers on the body (`RoleCatalog.h`).
-/

namespace WKOpenVR.Phantom

/-- The role of a tracker (`BodyRole`). -/
inductive BodyRole
  | none
  | hmd
  | leftHand
  | rightHand
  | waist
  | chest
  | leftFoot
  | rightFoot
  | leftKnee
  | rightKnee
  | leftElbow
  | rightElbow
  | leftShoulder
  | rightShoulder
  deriving DecidableEq, Repr

/-- All roles, in the order of the enumeration. -/
def BodyRole.all : List BodyRole :=
  [.none, .hmd, .leftHand, .rightHand, .waist, .chest, .leftFoot, .rightFoot, .leftKnee,
    .rightKnee, .leftElbow, .rightElbow, .leftShoulder, .rightShoulder]

theorem BodyRole.mem_all (r : BodyRole) : r ∈ BodyRole.all := by
  cases r <;> decide

/-- `BodyRoleToControllerType`: the type SteamVR knows the tracker of a role by, for
    the roles that virtual trackers can have. -/
def BodyRole.toControllerType : BodyRole → Option String
  | .waist => some "vive_tracker_waist"
  | .chest => some "vive_tracker_chest"
  | .leftFoot => some "vive_tracker_left_foot"
  | .rightFoot => some "vive_tracker_right_foot"
  | .leftKnee => some "vive_tracker_left_knee"
  | .rightKnee => some "vive_tracker_right_knee"
  | .leftElbow => some "vive_tracker_left_elbow"
  | .rightElbow => some "vive_tracker_right_elbow"
  | .none | .hmd | .leftHand | .rightHand | .leftShoulder | .rightShoulder => Option.none

/-- A role that a virtual tracker can have. -/
def BodyRole.publishable (r : BodyRole) : Bool := r.toControllerType.isSome

/-- `PhantomVirtualTrackersShouldRun`. -/
def virtualTrackersShouldRun (enabledRoleCount : ℕ) : Bool := 0 < enabledRoleCount

end WKOpenVR.Phantom
