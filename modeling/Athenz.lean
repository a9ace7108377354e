import Athenz.Lib.Text
import Athenz.Lib.Number
import Athenz.Lib.Decimal
import Athenz.Lib.Assign
import Athenz.Lib.Signature
import Athenz.Lib.Result
import Athenz.Lib.Map
import Athenz.Lib.Trie
import Athenz.Lib.Index
import Athenz.Lib.Diff
import Athenz.Lib.Document
import Athenz.NodeToken
import Athenz.NodeRoleToken
import Athenz.NodePrincipalToken
import Athenz.NodeTokenAuthentic
import Athenz.JavaToken
import Athenz.JavaPrincipalToken
import Athenz.PrincipalAuthority
import Athenz.PrincipalAuthoritySound
import Athenz.DataModel
import Athenz.DataCache
import Athenz.RequireRoleCertCache
import Athenz.RolePrefixTrie
import Athenz.DataStore
import Athenz.AccessibleRoles
import Athenz.X509CertRequest
import Athenz.X509ServiceCertRequest
import Athenz.ZtsImpl
import Athenz.RoleCertificate
import Athenz.OAuthTokenRequest
import Athenz.AccessToken
import Athenz.InstanceProvider
import Athenz.InstanceRegister
import Athenz.RoleIndex
import Athenz.Loading
import Athenz.Membership
import Athenz.GroupIndex
import Athenz.GroupRun
import Athenz.RoleCertIndex
import Athenz.Updates
import Athenz.DisabledDomain
import Athenz.FailedUpdate
import Athenz.RoleCertView
import Athenz.RoleCertExact
import Athenz.RoleCertRun
import Athenz.ServiceIndex
import Athenz.CloudAccounts
import Athenz.SignUtils
import Athenz.ZpeDecision
import Athenz.AuthzHelper
import Athenz.ZtsAuthorizer
import Athenz.Agreement
import Athenz.DelegatedTrust
import Athenz.ZpeAccessToken
import Athenz.ZpeDirectory
import Athenz.SignedDomainData
import Athenz.Lib.Transaction
import Athenz.ZmsModel
import Athenz.JdbcConnection
import Athenz.DbService
import Athenz.DbServiceOperations
import Athenz.DbServiceMeta
import Athenz.Lib.Focus
import Athenz.Atomicity
import Athenz.StoreSpec
import Athenz.ServiceReplacement
import Athenz.MetaFrame
import Athenz.RoleCertUris
import Athenz.AwsAssumeRole
import Athenz.CertRecordStore
import Athenz.CertRefresh
import Athenz.CertRefreshRace
import Athenz.InstanceRefresh
import Athenz.DomainExpiry
import Athenz.TenancyOperations
import Athenz.Lib.Frame
import Athenz.ObjectFrames
import Athenz.ProviderRoles
import Athenz.ProviderRolesRun
import Athenz.TenancyDeletion
import Athenz.ServiceCertNames
import Athenz.ProviderSuffixes
import Athenz.DomainDashes
import Athenz.CsrAltNames
import Athenz.DomainIdentifiers
import Athenz.RowChanges
import Athenz.ZmsImpl
import Athenz.DanglingGroups
import Athenz.FourEyes
import Athenz.Lib.Failing
import Athenz.AssertionConditions
import Athenz.ConditionScope
import Athenz.ConditionUpdates
import Athenz.Lib.Expiring
import Athenz.NodePolicies
import Athenz.NodeZpe
import Athenz.NodeLookups
import Athenz.NodeTokenCache
import Athenz.NodePolicyFiles
import Athenz.DisabledStates
import Athenz.PrincipalStateUpdater
import Athenz.PrincipalSuspension
import Athenz.AuthorityFilters
import Athenz.FilterEnforcer
import Athenz.FilterTracking
import Athenz.AdminAccess
import Athenz.AdminMembers
import Athenz.AdminCreation
import Athenz.AdminRuns
import Athenz.JavaRoleToken
import Athenz.TokenRoundTrip
import Athenz.Lib.Integers
import Athenz.TokenReaders
import Athenz.Lib.Exceptional
import Athenz.ZtsClient
import Athenz.ZtsClientCalls
import Athenz.ZtsClientExpiry
import Athenz.ZtsClientRules
import Athenz.ZtsClientKeys
import Athenz.ZtsClientIdentity
import Athenz.GlobRegex
import Athenz.RoleMembership
import Athenz.CertRecordCleanup
import Athenz.CloudStore
import Athenz.CloudStoreCaches
import Athenz.IpBlocks
import Athenz.Lifetimes
import Athenz.ScopeItems
import Athenz.YBase64
import Athenz.YBase64RoundTrip
import Athenz.Lib.BigEndian
import Athenz.SignatureFormats
import Athenz.AuthzDetails
import Athenz.CertDnsNames
import Athenz.ListPaging
import Athenz.Workloads
import Athenz.ServiceToken
import Athenz.TransportRules
import Athenz.PolicyStore
import Athenz.PolicyVersions
import Athenz.TemplateInstances
import Athenz.SaveCertKey
import Athenz.SavedPairs
import Athenz.DomainFiles
import Athenz.DomainRoundTrip
import Athenz.DomainRestore
import Athenz.CertPriority
import Athenz.Lib.TrieNodes
import Athenz.RolePrefixTrieRuns
import Athenz.ActiveVersions
import Athenz.TagChanges
import Athenz.MemberReplacement
import Athenz.Lib.StaleWrites
import Athenz.Lib.Attempts
import Athenz.Lib.History
import Athenz.ChangeLog
import Athenz.DomainCopies
import Athenz.DomainTracking
import Athenz.FullSync
import Athenz.Polling
import Athenz.MetaConcurrency
import Athenz.TagQuota
import Athenz.Lib.Matching
import Athenz.AssertionReplacement
