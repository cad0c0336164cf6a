import Galley.Image.Picture

/-!
# Golden pictures

A fresh picture is judged against a reference. A reference that resembles the
picture is left alone; otherwise it is replaced if updates are allowed and is a
complaint if not. A missing reference is no fault of a run without pages.
-/

namespace Galley.Image

/-- What is wrong with a reference. -/
inductive Complaint
  | differs
  | unreadable
  deriving DecidableEq, Repr

def Complaint.message : Complaint → String
  | differs => "  Does not match reference image."
  | unreadable => "  Failed to open reference image."

/-- The outcome of judging a picture. -/
inductive Verdict
  | accepted
  /-- The reference has to be replaced. -/
  | updated
  | rejected (complaint : Complaint)
  deriving DecidableEq, Repr

namespace Verdict

def ok : Verdict → Bool
  | rejected _ => false
  | _ => true

def isUpdate : Verdict → Bool
  | updated => true
  | _ => false

def complaint? : Verdict → Option Complaint
  | rejected complaint => some complaint
  | _ => none

end Verdict

/-- Judges a picture against a reference, which is none if there is no readable
one. -/
def judge (picture : Picture) (reference : Option Picture) (update hasPages : Bool) : Verdict :=
  match reference with
  | some reference =>
    if picture.resembles reference then .accepted
    else if update then .updated
    else .rejected .differs
  | none =>
    if !hasPages then .accepted
    else if update then .updated
    else .rejected .unreadable

end Galley.Image
