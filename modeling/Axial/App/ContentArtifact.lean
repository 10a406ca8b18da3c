/-
This file models what `content/install.rs` and `content/packs.rs` ask of the
address of a file, and the files and selections of a modpack.
-/

import Axial.App.ContentProvider

namespace Axial.App

abbrev maxContentFileBytes : Nat := 512 * 1024 * 1024

/-! ### Public addresses -/

/-- The addresses of the source's list, private, local and reserved ones, are not public. -/
def publicIpv4 (first second third : UInt8) : Bool :=
  !(first = 0 || first = 10 || first = 127 || first ≥ 224 ||
    (first = 100 && 64 ≤ second && second ≤ 127) || (first = 169 && second = 254) ||
    (first = 172 && 16 ≤ second && second ≤ 31) || (first = 192 && second = 168) ||
    (first = 192 && second = 0 && (third = 0 || third = 2)) ||
    (first = 198 && (second = 18 || second = 19)) ||
    (first = 198 && second = 51 && third = 100) || (first = 203 && second = 0 && third = 113))

def publicIpv6 (segments : Fin 8 → UInt16) : Bool :=
  -- `to_ipv4_mapped`: the addresses `::ffff:a.b.c.d`.
  if (List.finRange 5).all (fun index => segments (index.castLE (by decide)) = 0) &&
      segments 5 = 0xffff then
    publicIpv4 (segments 6 >>> 8).toUInt8 (segments 6).toUInt8 (segments 7 >>> 8).toUInt8
  else
    segments 0 &&& 0xe000 = 0x2000 && segments 0 ≠ 0x2002 &&
      !(segments 0 = 0x2001 && (segments 1 ≤ 0x01ff || segments 1 = 0x0db8))

def publicHost : Option Host → Bool
  | some (.ipv4 first second third _) => publicIpv4 first second third
  | some (.ipv6 segments) => publicIpv6 segments
  | some (.domain domain) =>
    domain ≠ "localhost" && !endsWith domain ".localhost" && !endsWith domain ".local" &&
      domain.toList.any (· = '.')
  | none => false

/-- `validate_download_url(raw).is_ok()`. -/
def downloadUrlIsPublic (transport : Transport) (raw : String) : Bool :=
  (transport.parseUrl raw).any fun url =>
    url.scheme = "https" && url.username = "" && url.password.isNone && url.fragment.isNone &&
      publicHost url.host

/-! ### Artifacts -/

/-- `is_ascii_hexdigit`. -/
def isHexDigit (char : Char) : Bool :=
  char.isDigit || ('a' ≤ char && char ≤ 'f') || ('A' ≤ char && char ≤ 'F')

/-! ### Files of a modpack -/

inductive PackError where
  | invalid (message : String)
  | unsupported
  | tooLarge
  | selectionChanged
  | conflict (destination : String)
  | integrity
  deriving DecidableEq

structure ResolutionSelection where
  canonicalId : String
  kind : ContentKind
  versionId : Option String

structure PackFile where
  path : String
  url : String
  sha1 : Option String
  sha512 : Option String
  size : Option Nat

end Axial.App
