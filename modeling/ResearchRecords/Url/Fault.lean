/-!
Why a text is not the address of a web server.
-/
namespace ResearchRecords.Url

inductive Fault
  | noScheme
  | emptyHost
  | invalidDomain
  | invalidHostCharacter
  | invalidIpv4
  | invalidIpv6
  | invalidPort
  | otherScheme (scheme : String)
  deriving DecidableEq, Repr

def Fault.message : Fault → String
  | .noScheme => "relative URL without a base"
  | .emptyHost => "empty host"
  | .invalidDomain => "invalid international domain name"
  | .invalidHostCharacter => "invalid domain character"
  | .invalidIpv4 => "invalid IPv4 address"
  | .invalidIpv6 => "invalid IPv6 address"
  | .invalidPort => "invalid port number"
  | .otherScheme scheme => "scheme '" ++ scheme ++ "' is not of the web"

end ResearchRecords.Url
