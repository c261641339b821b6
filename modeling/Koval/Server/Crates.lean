import Koval.Schema
import Koval.Server.Forge
import Koval.Text.Utf8

/-!
This module contains the third-party functions that the server calls. They are parameters of the
model, what is relied on is stated where it is used.
-/

namespace Koval

abbrev Bytes := Utf8.Bytes

abbrev asBytes (s : String) : Bytes := Utf8.encode s

inductive TomlValue where
  | string (s : String)
  | integer (i : Int)
  | float (f : Rat)
  | boolean (b : Bool)
  | datetime (s : String)
  | array (elems : List TomlValue)
  | table (entries : List (String × TomlValue))

structure Crates where
  /-- `serde_json::to_string` on a hardware profile. -/
  profileToString : HardwareProfile → Except String String
  /-- `serde_json::from_str` into a hardware profile. -/
  profileFromStr : String → Except String HardwareProfile
  /-- The lower case hexadecimal SHA-256 digest. -/
  sha256 : Bytes → String
  /-- `bcrypt::verify`. -/
  bcryptVerify : String → String → Except String Bool
  /-- `bcrypt::hash` with the salt that it draws. -/
  bcryptHash : String → String → Except String String
  /-- `toml::from_str` into a `koval.toml`. -/
  kovalTomlFromStr : String → Except String KovalToml
  /-- `toml::from_str` into an untyped document. -/
  tomlFromStr : String → Except String TomlValue

end Koval
