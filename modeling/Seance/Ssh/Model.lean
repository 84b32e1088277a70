import Mathlib.Data.String.Basic

namespace Seance.Ssh

inductive SshError
  | missingAuthMethods
  | authenticationRejected
  | invalidPrivateKey (text : String)
  | transport (text : String)
  | timedOut
  | cancelled
  | sftpBootstrap (text : String)
  | sftpNotConnected
  | sftpOperation (text : String)
  | portForwardAlreadyRunning (id : String)
  | portForwardBind (text : String)
  | portForwardTargetConnect (text : String)
  | portForwardChannel (text : String)
  deriving DecidableEq, Repr

def SshError.to_string : SshError → String
  | .missingAuthMethods => "no SSH auth methods were resolved for this host"
  | .authenticationRejected => "all configured SSH auth methods were rejected by the server"
  | .invalidPrivateKey text => "invalid private key configuration: " ++ text
  | .transport text => "SSH transport error: " ++ text
  | .timedOut => "SSH connect timed out"
  | .cancelled => "SSH connect cancelled"
  | .sftpBootstrap text => "SFTP bootstrap failed: " ++ text
  | .sftpNotConnected => "no SFTP session for this connection"
  | .sftpOperation text => "SFTP operation failed: " ++ text
  | .portForwardAlreadyRunning id => "port forward " ++ id ++ " is already running"
  | .portForwardBind text => "port forward listener failed: " ++ text
  | .portForwardTargetConnect text => "port forward target connect failed: " ++ text
  | .portForwardChannel text => "port forward channel open failed: " ++ text

/-- What `wait()` delivers from a channel; the messages nothing looks at are `other`, and a signal
is named the way its `Debug` prints it. -/
inductive ChannelMsg
  | data (data : List UInt8)
  | extendedData (data : List UInt8) (ext : Nat)
  | exitStatus (exit_status : Nat)
  | exitSignal (signal_name : String)
  | eof
  | close
  | other (kind : String)
  deriving DecidableEq, Repr

end Seance.Ssh
