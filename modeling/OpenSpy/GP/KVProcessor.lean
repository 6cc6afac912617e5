import OpenSpy.Core.FinalMarker

/-!
# The GP packet processor

`KVProcessor::deserialize_data` splits what a GP peer receives at `\final\` and keeps the
incomplete rest. A `KVReader` is built from each partial string; the model hands over the
strings themselves.
-/

namespace OpenSpy.KVProcessor

/-- `MAX_UNPROCESSED_DATA` of `KVProcessor.h`. -/
def maxUnprocessedData : Nat := 5000

/-- `KVProcessor::deserialize_data`: the output, the return value and the accumulator left. -/
def deserializeData (accumulator buffer : Bytes) : List Bytes × Bool × Bytes :=
  let read := readFinal accumulator buffer
  (read.1, if read.2.length > maxUnprocessedData then false else true, read.2)

/-- Consecutive calls: all output in order, whether every call returned true, and the
accumulator left. -/
def deserializeAll : Bytes → List Bytes → List Bytes × Bool × Bytes
  | accumulator, [] => ([], true, accumulator)
  | accumulator, buffer :: rest =>
      let now := deserializeData accumulator buffer
      let later := deserializeAll now.2.2 rest
      (now.1 ++ later.1, now.2.1 && later.2.1, later.2.2)

theorem deserialize_all_eq (accumulator : Bytes) (buffers : List Bytes) :
    deserializeAll accumulator buffers = readFinalAll maxUnprocessedData accumulator buffers := by
  induction buffers generalizing accumulator with
  | nil => rfl
  | cons buffer rest ih =>
      simp only [deserializeAll, deserializeData, readFinalAll, ih, Prod.mk.injEq, true_and,
        and_true]
      split <;> simp_all

end OpenSpy.KVProcessor
