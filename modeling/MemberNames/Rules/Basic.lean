import MemberNames.Country
import MemberNames.Error

/-!
# Validation rules

What a name is validated against besides the constraints of its attributes: the country codes that
are accepted and the policy for the organisation.
-/

namespace MemberNames

/-- The rules a name is validated against. -/
structure Rules where
  countries : CountrySet
  organisationPolicy : OrganisationPolicy

namespace Rules

/-- The assigned country codes and the policy for legal names. -/
def standard : Rules :=
  ⟨.iso, OrganisationPolicy.legalName⟩

end Rules
end MemberNames
