/-!
# Status codes

The result codes that the device words and the host calls of the Qwen3.8 path share
(`include/axiom/axiom.h`).
-/
namespace AxiomKernel

inductive Status where
  | ok
  | invalidArgument
  | unsupportedBackend
  | cuda
  | runtime
  | notImplemented
  | io
  | budget
  deriving DecidableEq, Repr

/-- `atomicCAS(async_status, AXIOM_OK, error)`: the first error written stays. -/
def publishStatus (status error : Status) : Status :=
  if status = .ok then error else status

@[simp] theorem publishStatus_ok_left (error : Status) : publishStatus .ok error = error := rfl

@[simp] theorem publishStatus_ok_right (status : Status) : publishStatus status .ok = status := by
  cases status <;> rfl

theorem publishStatus_eq_ok_iff {st e : Status} :
    publishStatus st e = .ok ↔ st = .ok ∧ e = .ok := by
  cases st <;> simp [publishStatus]

end AxiomKernel
