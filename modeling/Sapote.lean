import Sapote.Heap.LiveAllocations
import Sapote.Ledger.Permutation
import Sapote.Timer.Armed
import Sapote.Threads.Interleaving
import Sapote.Pci.Exactness
import Sapote.Msix.Transaction
import Sapote.Ioapic.Delivery
import Sapote.Dma.Reuse
import Sapote.Elf.Exactness
import Sapote.Logo.RoundTrip
import Sapote.Fat.Pipeline
import Sapote.Fat.Sha256
import Sapote.Graphics.Viewport
import Sapote.Shell.Loop
import Sapote.Shell.Queue
import Sapote.Shell.Keyboard
import Sapote.Shell.Line
import Sapote.Boot.Acceptance
import Sapote.Acpi.Lookup
import Sapote.Frames.Contiguous
import Sapote.Heap.Refusals
import Sapote.Paging.Audit
import Sapote.Paging.Protection
import Sapote.Shell.Controller
import Sapote.Paging.ProcessSpace
import Sapote.Paging.Alias
import Sapote.Timer.Clocks
import Sapote.Timer.PmTimer
