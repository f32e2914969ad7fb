import ObjectBus.Error
import ObjectBus.Wire.Transmission

/-!
# Framing

On a stream of bytes every encoded transmission is a frame: its length in four bytes, the
highest first, and then its bytes. A frame that is too long is refused as soon as its length
is read.
-/

namespace ObjectBus.Framing

/-- How many bytes a frame may have. -/
def maxFrameLength : Nat := 16 * 1024 * 1024

/-- Four bytes as a number, the highest first. -/
def lengthOfBytes (a b c d : UInt8) : Nat :=
  ((a.toNat * 256 + b.toNat) * 256 + c.toNat) * 256 + d.toNat

/-- The bytes of a length, the highest first. -/
def bytesOfLength (n : Nat) : List UInt8 :=
  [UInt8.ofNat (n / 16777216), UInt8.ofNat (n / 65536), UInt8.ofNat (n / 256), UInt8.ofNat n]

/-- The frame around some bytes. -/
def frame (body : List UInt8) : List UInt8 := bytesOfLength body.length ++ body

/-- How a stream ends. -/
inductive StreamEnd where
  /-- Between two frames. -/
  | clean
  /-- Within a frame. -/
  | truncated
  /-- At a frame that is too long. -/
  | oversized
deriving DecidableEq, Repr

/-- What the start of a stream holds. -/
inductive Head where
  /-- A whole frame and the rest of the stream. -/
  | frame (body rest : List UInt8)
  /-- No whole frame. -/
  | ended (e : StreamEnd)
deriving DecidableEq, Repr

/-- Look at the start of a stream. -/
def head : List UInt8 → Head
  | [] => .ended .clean
  | a :: b :: c :: d :: rest =>
    let n := lengthOfBytes a b c d
    -- A length that is too large is refused before any of the bytes arrive.
    if maxFrameLength < n then .ended .oversized
    else if rest.length < n then .ended .truncated
    else .frame (rest.take n) (rest.drop n)
  | _ => .ended .truncated

/-- What follows a frame is shorter than the stream. -/
theorem length_lt_of_head {bytes body rest : List UInt8} (h : head bytes = .frame body rest) :
    rest.length < bytes.length := by
  match bytes with
  | [] | [_] | [_, _] | [_, _, _] => simp [head] at h
  | a :: b :: c :: d :: tail =>
    rw [head] at h
    split at h
    · simp at h
    · split at h
      · simp at h
      · simp only [Head.frame.injEq] at h
        rw [← h.2]
        simp only [List.length_drop, List.length_cons]
        omega

/-- Split a stream into its frames. -/
def split (bytes : List UInt8) : List (List UInt8) × StreamEnd :=
  match _h : head bytes with
  | .ended e => ([], e)
  | .frame body rest =>
    let more := split rest
    (body :: more.1, more.2)
termination_by bytes.length
decreasing_by exact length_lt_of_head _h

/-- The error at a stream that ends within a frame. -/
def truncatedError : TransportError := .io "bytes remaining on stream"

/-- The error at a frame that is too long. -/
def oversizedError : TransportError := .io "frame size too big"

end ObjectBus.Framing
