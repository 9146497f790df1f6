import MemberNames.Main
import MemberNames.Proofs.Command.Arguments
import MemberNames.Proofs.Command.Comparison
import MemberNames.Proofs.Command.Convert
import MemberNames.Proofs.Command.JsonLines
import MemberNames.Proofs.Command.Record
import MemberNames.Proofs.Command.Run
import MemberNames.Proofs.Name.Collision
import MemberNames.Proofs.Name.Country
import MemberNames.Proofs.Name.Order
import MemberNames.Proofs.Name.Principal
import MemberNames.Proofs.Name.Recognition
import MemberNames.Proofs.Name.Reencoding
import MemberNames.Proofs.Name.Refusal
import MemberNames.Proofs.Name.Routes
import MemberNames.Proofs.Name.Spelling
import MemberNames.Proofs.Organisation
import MemberNames.Proofs.Rdn.Agreement
import MemberNames.Proofs.Rdn.Concatenation
import MemberNames.Proofs.Rdn.Offset
import MemberNames.Proofs.Roster
import MemberNames.Proofs.Rules.Comparison
