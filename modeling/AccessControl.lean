import AccessControl.Api
import AccessControl.Password.Argon2id
import AccessControl.Token.Primitives
import AccessControl.Proofs.Api.Boot
import AccessControl.Proofs.Api.Resubmission
import AccessControl.Proofs.Api.Secrecy
import AccessControl.Proofs.Directory.Credentials
import AccessControl.Proofs.Directory.Listings
import AccessControl.Proofs.Directory.Permissions
import AccessControl.Proofs.Document.Forms
import AccessControl.Proofs.Gate.Admission
import AccessControl.Proofs.Gate.Check
import AccessControl.Proofs.Gate.Header
import AccessControl.Proofs.Gate.Identity
import AccessControl.Proofs.Grants.Transport
import AccessControl.Proofs.Repository.AccountWrites
import AccessControl.Proofs.Repository.AdminReset
import AccessControl.Proofs.Repository.Commuting
import AccessControl.Proofs.Repository.InPlace
import AccessControl.Proofs.Repository.RoleLookups
import AccessControl.Proofs.Repository.RoleWrites
import AccessControl.Proofs.Repository.Runs
import AccessControl.Proofs.Repository.Secrets
import AccessControl.Proofs.Repository.Undoing
import AccessControl.Proofs.Site.LastWrite
import AccessControl.Proofs.Token.Acceptance
import AccessControl.Proofs.Token.History
