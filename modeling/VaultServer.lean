import VaultServer.Access.Agreement
import VaultServer.Security.Hub
import VaultServer.Security.Addresses
import VaultServer.Security.Identities
import VaultServer.Security.AuthRequests
import VaultServer.Security.TokenKinds
import VaultServer.Security.SignOnOnce
import VaultServer.Security.SendLimit
import VaultServer.Access.Managers
import VaultServer.Security.Passwords
import VaultServer.Access.MissedSync
import VaultServer.WebClient.LateReplies
import VaultServer.Deploy.Evidence
import VaultServer.Deploy.Workflows
import VaultServer.Access.Assignment
import VaultServer.Access.StaleEdits
import VaultServer.Access.Deletion
import VaultServer.Access.Renaming
import VaultServer.Security.EmergencyJobs
import VaultServer.Access.MainOrganization
import VaultServer.Security.Providers
import VaultServer.WebClient.Kdf
import VaultServer.Api.Framing
import VaultServer.WebClient.EncString
import VaultServer.Config.Saved
