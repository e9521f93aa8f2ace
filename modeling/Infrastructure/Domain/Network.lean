import Infrastructure.Domain.Status
import Infrastructure.Net.Address

/-! Subnets and security groups, as far as instances depend on them, and the rules of security
groups. -/

namespace Infrastructure.Domain

open State

def kindSubnet : String := "subnet"

structure SubnetSpec where
  vpcId : String
  cidr : String
  deriving DecidableEq, Repr

structure SubnetStatus extends StatusBase where
  gateway : String := ""
  deriving DecidableEq, Repr

abbrev Subnet := Resource SubnetSpec SubnetStatus

def kindSecurityGroup : String := "security_group"

structure SecurityGroupSpec where
  name : String := ""
  deriving DecidableEq, Repr

structure SecurityGroupStatus extends StatusBase where
  chain : String := ""
  deriving DecidableEq, Repr

abbrev SecurityGroup := Resource SecurityGroupSpec SecurityGroupStatus

def securityGroupFinalizer : String := "infra.io/security-group"

def kindSecurityGroupRule : String := "security_group_rule"

structure SecurityGroupRuleSpec where
  securityGroupId : String
  /-- `ingress` or `egress`. -/
  direction : String
  /-- `tcp`, `udp`, `icmp` or `all`. -/
  protocol : String
  port : Int := 0
  cidr : String := ""
  deriving DecidableEq, Repr

/-- `parseCIDR` is `net.ParseCIDR`. -/
def SecurityGroupRuleSpec.validate (parseCIDR : String → Option Net.IPNet)
    (spec : SecurityGroupRuleSpec) :
    Except Error Unit :=
  if spec.securityGroupId = "" then .error (.new "security_group_rule: securityGroupId is required")
  else if spec.direction ≠ "ingress" ∧ spec.direction ≠ "egress" then
    .error (.new "security_group_rule: direction must be ingress or egress")
  else if spec.protocol ≠ "tcp" ∧ spec.protocol ≠ "udp" ∧ spec.protocol ≠ "icmp" ∧
    spec.protocol ≠ "all" then
    .error (.new ("security_group_rule: invalid protocol " ++ quoted spec.protocol))
  else if spec.port < 0 ∨ spec.port > 65535 then
    .error (.new "security_group_rule: port out of range")
  else if spec.cidr ≠ "" ∧ parseCIDR spec.cidr = none then
    .error (.new ("security_group_rule: invalid cidr " ++ quoted spec.cidr))
  else .ok ()

structure SecurityGroupRuleStatus extends StatusBase where
  deriving DecidableEq, Repr

abbrev SecurityGroupRule := Resource SecurityGroupRuleSpec SecurityGroupRuleStatus

end Infrastructure.Domain
