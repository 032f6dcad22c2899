/-!
# Envelopes

The host in memory knows geometry only as *envelopes*: rectangles whose sides are parallel to the
axes. A line is an envelope without height. Nothing asks that the lower bounds are below the upper
ones; an envelope for which they are not may meet others all the same.

Bounds are compared as floats are, so that NaN is below nothing and above nothing. The greater and
the lesser of two bounds pass over NaN.

## Parts

Merging the envelopes of a dataset gives *parts* that do not meet. An envelope that is added absorbs
the parts that it meets. It grows with each of them, so it may come to meet a part that was passed
over before; the parts are scanned again until a scan finds nothing more.
-/

namespace MapQuery.Memory

/-- The greater of two numbers; the first one of two that are equal. -/
def greater (a b : Float) : Float :=
  if a.isNaN then b else if a < b then b else a

/-- The lesser of two numbers; the first one of two that are equal. -/
def lesser (a b : Float) : Float :=
  if a.isNaN then b else if b < a then b else a

structure Envelope where
  minX : Float
  minY : Float
  maxX : Float
  maxY : Float
deriving DecidableEq

namespace Envelope

/-- Whether two envelopes have a point in common. Touching is enough. -/
def meets (a b : Envelope) : Bool :=
  a.minX ≤ b.maxX && b.minX ≤ a.maxX && a.minY ≤ b.maxY && b.minY ≤ a.maxY

/-- The part of an envelope that lies in another one. -/
def clip (a b : Envelope) : Envelope :=
  ⟨greater a.minX b.minX, greater a.minY b.minY, lesser a.maxX b.maxX, lesser a.maxY b.maxY⟩

/-- The least envelope around two. -/
def cover (a b : Envelope) : Envelope :=
  ⟨lesser a.minX b.minX, lesser a.minY b.minY, greater a.maxX b.maxX, greater a.maxY b.maxY⟩

/-- The envelope with each side moved out by a distance. -/
def grow (a : Envelope) (distance : Float) : Envelope :=
  ⟨a.minX - distance, a.minY - distance, a.maxX + distance, a.maxY + distance⟩

/-- The envelope with all bounds multiplied by a factor. -/
def scale (a : Envelope) (factor : Float) : Envelope :=
  ⟨a.minX * factor, a.minY * factor, a.maxX * factor, a.maxY * factor⟩

/-! ## Merging -/

/-- One scan: the envelope absorbs each part that it meets when its turn comes. Gives the envelope
that has grown and the parts that are left. -/
def absorb (envelope : Envelope) : List Envelope → Envelope × List Envelope
  | [] => (envelope, [])
  | part :: rest =>
    if part.meets envelope then (envelope.cover part).absorb rest
    else
      let (grown, left) := envelope.absorb rest
      (grown, part :: left)

theorem length_absorb_le (envelope : Envelope) (parts : List Envelope) :
    (envelope.absorb parts).2.length ≤ parts.length := by
  induction parts generalizing envelope with
  | nil => simp [absorb]
  | cons part rest ih =>
    unfold absorb
    split
    · exact Nat.le_succ_of_le (ih _)
    · exact Nat.succ_le_succ (ih _)

/-- Scans until the envelope meets none of the parts that are left. -/
def absorbAll (envelope : Envelope) (parts : List Envelope) : Envelope × List Envelope :=
  let scanned := envelope.absorb parts
  if scanned.2.length < parts.length then scanned.1.absorbAll scanned.2 else scanned
termination_by parts.length

/-- Adds an envelope to parts that do not meet. -/
def addPart (parts : List Envelope) (envelope : Envelope) : List Envelope :=
  let (grown, left) := envelope.absorbAll parts
  left ++ [grown]

/-- The parts that envelopes merge to when those that meet become one. -/
def mergeMeeting (envelopes : List Envelope) : List Envelope :=
  envelopes.foldl addPart []

/-- The one part that envelopes merge to, if there is any envelope. -/
def mergeAll : List Envelope → List Envelope
  | [] => []
  | first :: rest => [rest.foldl (fun merged envelope ↦ envelope.cover merged) first]

end Envelope

end MapQuery.Memory
