import Infrastructure.Text.Path

/-! The resource kinds, each with the text that names it in store keys and routes. -/

namespace Infrastructure.Domain

open Text

inductive Kind where
  | vpc
  | subnet
  | securityGroup
  | securityGroupRule
  | ipAddress
  | igw
  | route
  | kmsKeyring
  | kmsKey
  | disk
  | diskFile
  | asyncDiskReplica
  | compute
  | microVM
  | aclPolicy
  | dnsZone
  | dnsRecord
  | peering
  | loadBalancer
  | lbBackend
  | lbTargetGroup
  | lbTarget
  | lbListener
  | wafPolicy
  | wafRule
  | node
  | nodePool
  | function
  | functionInstance
  | organization
  | folder
  | project
  | iamBinding
  | secret
  | secretVersion
  | sslCA
  | sslCert
  | user
  | accessToken
  deriving DecidableEq, Repr

def Kind.text : Kind → String
  | .vpc => "vpc"
  | .subnet => "subnet"
  | .securityGroup => "security_group"
  | .securityGroupRule => "security_group_rule"
  | .ipAddress => "ip_address"
  | .igw => "igw"
  | .route => "route"
  | .kmsKeyring => "kms_keyring"
  | .kmsKey => "kms_key"
  | .disk => "disk"
  | .diskFile => "disk_file"
  | .asyncDiskReplica => "async_disk_replica"
  | .compute => "compute"
  | .microVM => "microvm"
  | .aclPolicy => "acl_policy"
  | .dnsZone => "dns_zone"
  | .dnsRecord => "dns_record"
  | .peering => "peering"
  | .loadBalancer => "load_balancer"
  | .lbBackend => "lb_backend"
  | .lbTargetGroup => "lb_target_group"
  | .lbTarget => "lb_target"
  | .lbListener => "lb_listener"
  | .wafPolicy => "waf_policy"
  | .wafRule => "waf_rule"
  | .node => "node"
  | .nodePool => "node_pool"
  | .function => "function"
  | .functionInstance => "function_instance"
  | .organization => "organization"
  | .folder => "folder"
  | .project => "project"
  | .iamBinding => "iam_binding"
  | .secret => "secret"
  | .secretVersion => "secret_version"
  | .sslCA => "ssl_ca"
  | .sslCert => "ssl_cert"
  | .user => "user"
  | .accessToken => "access_token"

def Kind.find (text : String) : Option Kind :=
  ((List.range (Kind.accessToken.ctorIdx + 1)).map Kind.ofNat).find? fun kind => kind.text == text

theorem Kind.find_text (kind : Kind) : Kind.find kind.text = some kind := by
  cases kind <;> decide +kernel

theorem Kind.text_inj {first snd : Kind} (eq : first.text = snd.text) : first = snd := by
  apply Option.some.inj
  rw [← Kind.find_text first, eq, Kind.find_text snd]

theorem Kind.text_plain (kind : Kind) : Plain kind.text.toList := by
  cases kind <;> decide +kernel

/-- The directory of a kind under the root of the store. -/
def Kind.name (kind : Kind) : Name := ⟨kind.text.toList, kind.text_plain⟩

theorem Kind.name_inj {first snd : Kind} (eq : first.name = snd.name) : first = snd := by
  apply Kind.text_inj
  apply String.toList_inj.mp
  exact congrArg Name.text eq

end Infrastructure.Domain
