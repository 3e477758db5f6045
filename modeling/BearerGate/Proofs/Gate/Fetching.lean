import BearerGate.Proofs.Gate.Authentication

namespace BearerGate

namespace KeySet

end KeySet

namespace KeyServer

end KeyServer

namespace Gate

section

variable {g : Gate} {clock : Clock} {server : KeyServer} {cache : Cache} {force : Bool}
  {limit : Number}

end

namespace Sample

end Sample

end Gate

end BearerGate
