import TapeNet.Machine
import TapeNet.Plane.Picture

/-! # The scaffold camera

    A camera program prints its view as character codes:

        ..#..........
        ..#..........
        #######...###
        #.#...#...#.#
        #############
        ..#...#...#..
        ..#####...^..

    `#` is scaffold, `.` open space, and `^ v < >` a robot, which is shown
    as `X` when it tumbles. The alignment parameter of a crossing is the
    product of its column and its row.
-/

namespace TapeNet.Scaffold

/-- The value of a cell of scaffold. -/
def scaffold : Int := 1

/-- What the characters of a view stand for. -/
def legend : Legend :=
  ⟨[(Text.codes ".", 0), (Text.codes "#", scaffold), (Text.codes "^", 2), (Text.codes "v", 2),
    (Text.codes "<", 2), (Text.codes ">", 2), (Text.codes "X", 3)]⟩

/-- The sum of the alignment parameters of all crossings of a view. -/
def alignment (view : List Nat) : Except PictureError Int := do
  let grid ← legend.read view
  pure ((grid.map (· == scaffold)).crossings.foldr (fun p sum => p.x * p.y + sum) 0)

/-- Why a camera yields no result. -/
inductive CameraError
  | fault (cause : Fault)
  /-- an output is no character code -/
  | notText
  | picture (cause : PictureError)
deriving DecidableEq, Repr

def CameraError.message : CameraError → String
  | .fault cause => cause.message
  | .notText => "camera output is not ASCII text"
  | .picture cause => cause.message

/-- What a camera program shows, without line feeds at both ends. -/
def cameraView (fuel : Nat) (program : List Int) :
    ExceptT CameraError Option (List Nat) := do
  let outputs ← (runProgram fuel program []).adapt .fault
  match outputs.mapM Text.code? with
  | some view => pure (Text.trim (· == 0x0A) view)
  | none => throw .notText

/-- The sum of the alignment parameters of what a camera program shows. -/
def calibrate (fuel : Nat) (program : List Int) : ExceptT CameraError Option Int := do
  let view ← cameraView fuel program
  ExceptT.mk (some ((alignment view).mapError .picture))

end TapeNet.Scaffold
