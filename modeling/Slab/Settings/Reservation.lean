import Slab.Arena.Basic
import Slab.Settings.Basic

/-!
# The arena of the settings

`Settings.arenaOptions` says which arena the settings ask for.
-/

namespace Slab

/-- The arena that the settings ask for. -/
def Settings.arenaOptions (s : Settings) : Arena.Options :=
  { sizeBytes := s.arena.sizeBytes.toNat
    domain := s.arena.domain
    hugePages := s.arena.hugePages
    locality := s.arena.locality
    lock := s.arena.lock }

end Slab
