import DoubleSlash.Lemmas.Installs

/-!
# Signed releases

On the stable channel the manifest of a release, where it has one, decides whether its archive is installed.
-/

namespace DoubleSlash.Installer

open Codec JsonTree

namespace SignedReleasesAux

variable {ν : Type} {format : JsonFormat ν} {signing : Signing}

/-! ## The two readings -/

variable {setup : Setup ν} {server : Server}

end SignedReleasesAux

open SignedReleasesAux

namespace SignedReleasesAux

/-- The digest of 32 zeros. -/
def zeroDigest : List UInt8 := (hexDecode "66687aadf862bd776c8fc18b8e9f8e20089714856ee233b3902a591d0d5f2925").getD []

end SignedReleasesAux

end DoubleSlash.Installer
