import MemberNames.Text.Basic

/-!
# Country codes

The codes that the country attribute may hold: the assigned two-letter codes of ISO 3166-1, the
code `ZZ` for an unspecified country, and the codes that a deployment adds. Codes are compared
exactly, letter case included.

* `CountrySet.iso`, `CountrySet.withAdditional`: the sets
* `CountrySet.contains`: membership
-/

namespace MemberNames

/-- The officially assigned codes of ISO 3166-1 alpha-2. -/
def isoCountryCodes : List String := [
  "AD", "AE", "AF", "AG", "AI", "AL", "AM", "AO", "AQ", "AR", "AS", "AT", "AU", "AW", "AX", "AZ",
  "BA", "BB", "BD", "BE", "BF", "BG", "BH", "BI", "BJ", "BL", "BM", "BN", "BO", "BQ", "BR", "BS",
  "BT", "BV", "BW", "BY", "BZ", "CA", "CC", "CD", "CF", "CG", "CH", "CI", "CK", "CL", "CM", "CN",
  "CO", "CR", "CU", "CV", "CW", "CX", "CY", "CZ", "DE", "DJ", "DK", "DM", "DO", "DZ", "EC", "EE",
  "EG", "EH", "ER", "ES", "ET", "FI", "FJ", "FK", "FM", "FO", "FR", "GA", "GB", "GD", "GE", "GF",
  "GG", "GH", "GI", "GL", "GM", "GN", "GP", "GQ", "GR", "GS", "GT", "GU", "GW", "GY", "HK", "HM",
  "HN", "HR", "HT", "HU", "ID", "IE", "IL", "IM", "IN", "IO", "IQ", "IR", "IS", "IT", "JE", "JM",
  "JO", "JP", "KE", "KG", "KH", "KI", "KM", "KN", "KP", "KR", "KW", "KY", "KZ", "LA", "LB", "LC",
  "LI", "LK", "LR", "LS", "LT", "LU", "LV", "LY", "MA", "MC", "MD", "ME", "MF", "MG", "MH", "MK",
  "ML", "MM", "MN", "MO", "MP", "MQ", "MR", "MS", "MT", "MU", "MV", "MW", "MX", "MY", "MZ", "NA",
  "NC", "NE", "NF", "NG", "NI", "NL", "NO", "NP", "NR", "NU", "NZ", "OM", "PA", "PE", "PF", "PG",
  "PH", "PK", "PL", "PM", "PN", "PR", "PS", "PT", "PW", "PY", "QA", "RE", "RO", "RS", "RU", "RW",
  "SA", "SB", "SC", "SD", "SE", "SG", "SH", "SI", "SJ", "SK", "SL", "SM", "SN", "SO", "SR", "SS",
  "ST", "SV", "SX", "SY", "SZ", "TC", "TD", "TF", "TG", "TH", "TJ", "TK", "TL", "TM", "TN", "TO",
  "TR", "TT", "TV", "TW", "TZ", "UA", "UG", "UM", "US", "UY", "UZ", "VA", "VC", "VE", "VG", "VI",
  "VN", "VU", "WF", "WS", "YE", "YT", "ZA", "ZM", "ZW"
]

/-- The code of an unspecified country. -/
def unspecifiedCountry : Text :=
  ['Z', 'Z']

/-- A set of country codes, given by what it adds to the assigned ones. -/
structure CountrySet where
  /-- The added codes, ascending and without repetition. -/
  additional : List Text
  deriving DecidableEq, Repr

namespace CountrySet

/-- Inserts a code into an ascending list that keeps each code once. -/
def insertSorted (code : Text) : List Text → List Text
  | [] => [code]
  | other :: codes =>
    if code < other then code :: other :: codes
    else if code = other then other :: codes
    else other :: insertSorted code codes

/-- The assigned codes and `ZZ`. -/
def iso : CountrySet :=
  ⟨[]⟩

/-- The assigned codes, `ZZ` and the given ones. -/
def withAdditional (codes : List Text) : CountrySet :=
  ⟨codes.foldr insertSorted []⟩

def contains (countries : CountrySet) (code : Text) : Bool :=
  code = unspecifiedCountry || isoCountryCodes.any (fun assigned => assigned.toList = code) ||
    countries.additional.contains code

end CountrySet
end MemberNames
