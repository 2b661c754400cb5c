import Lisplet.Action
import Lisplet.Proofs.Outcomes

/-!
# Code that is made of data

A datum of symbols, integers and pairs is made into a value without a look at the store: its pairs get the
next identities in the order in which they are made. So the code of a source is known up to the number that
the identities begin with.
-/

namespace Lisplet

namespace Datum

/-- Data that code without strings and floats consists of. -/
def isCode : Datum → Bool
  | .int _ | .bool _ | .sym _ | .nil => true
  | .pair head tail => head.isCode && tail.isCode
  | _ => false

/-- The value of a datum that is code, and the next identity behind it. -/
def build : Datum → ObjectId → Value × ObjectId
  | .int n, id => (.int n, id)
  | .bool b, id => (.bool b, id)
  | .sym name, id => (.sym name, id)
  | .pair head tail, id =>
    let h := head.build id
    let t := tail.build h.2
    (.cons t.2 h.1 t.1, t.2 + 1)
  | _, id => (.nil, id)

end Datum

namespace Action

/-- Code is made as it is built, with the next identities of the store. -/
theorem instantiate_eq_build {d : Datum} (hd : d.isCode = true) (s : Store) :
    instantiate d s = .ok (d.build s.nextObject).1 { s with nextObject := (d.build s.nextObject).2 } := by
  induction d generalizing s with
  | pair head tail ihead itail =>
    obtain ⟨hhead, htail⟩ := Bool.and_eq_true_iff.mp hd
    rw [instantiate, bind_of_ok (ihead hhead s)]
    exact bind_of_ok (itail htail _)
  | int | bool | sym | nil => rfl
  | _ => exact nomatch hd

end Action

end Lisplet
