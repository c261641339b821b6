/-!
This module contains the script that installs a project, which the server has built in.
-/

namespace Koval

-- Without the newlines that end them.
def installShLines : List String := [
  "#!/bin/sh",
  "set -e",
  "",
  "# Configured variables replaced by the Koval server during serving:",
  "SERVER_URL=\"\x7b\x7bSERVER_URL\x7d\x7d\"",
  "PROJECT=\"\x7b\x7bPROJECT\x7d\x7d\"",
  "REF=\"\x7b\x7bREF\x7d\x7d\"",
  "TOKEN=\"\x7b\x7bTOKEN\x7d\x7d\"",
  "",
  "echo \"======================================================\"",
  "echo \" Starting Koval Smart Installer for $\x7bPROJECT\x7d ($\x7bREF\x7d)\"",
  "echo \"======================================================\"",
  "",
  "# 1. Detect architecture",
  "OS=$(uname -s)",
  "ARCH=$(uname -m)",
  "",
  "if [ \"$OS\" != \"Linux\" ]; then",
  "    echo \"Error: Only Linux is supported at the moment.\" >&2",
  "    exit 1",
  "fi",
  "",
  "case \"$ARCH\" in",
  "    x86_64)",
  "        TARGET_ARCH=\"x86_64\"",
  "        ;;",
  "    aarch64)",
  "        TARGET_ARCH=\"aarch64\"",
  "        ;;",
  "    i686)",
  "        TARGET_ARCH=\"i686\"",
  "        ;;",
  "    armv6l)",
  "        TARGET_ARCH=\"armv6\"",
  "        ;;",
  "    *)",
  "        echo \"Error: Unsupported architecture: $\x7bARCH\x7d\" >&2",
  "        exit 1",
  "        ;;",
  "esac",
  "",
  "# Create a secure temp directory",
  "TMP_DIR=$(mktemp -d -t koval-install-XXXXXX)",
  "cleanup() \x7b",
  "    rm -rf \"$TMP_DIR\"",
  "\x7d",
  "trap cleanup EXIT",
  "",
  "echo \"--> Downloading static hardware probe for $\x7bTARGET_ARCH\x7d...\"",
  "PROBE_PATH=\"$\x7bTMP_DIR\x7d/koval-probe\"",
  "",
  "# Check if curl or wget is available",
  "if command -v curl >/dev/null 2>&1; then",
  "    curl -sSfL \"$\x7bSERVER_URL\x7d/probe/static/$\x7bTARGET_ARCH\x7d\" -o \"$PROBE_PATH\"",
  "elif command -v wget >/dev/null 2>&1; then",
  "    wget -qO \"$PROBE_PATH\" \"$\x7bSERVER_URL\x7d/probe/static/$\x7bTARGET_ARCH\x7d\"",
  "else",
  "    echo \"Error: Neither curl nor wget was found. Please install one of them.\" >&2",
  "    exit 1",
  "fi",
  "",
  "chmod +x \"$PROBE_PATH\"",
  "",
  "echo \"--> Profiling host hardware...\"",
  "# Run the probe and save the profile",
  "PROFILE_PATH=\"$\x7bTMP_DIR\x7d/profile.json\"",
  "\"$PROBE_PATH\" > \"$PROFILE_PATH\"",
  "",
  "# Send the profile to Koval server and get build status",
  "echo \"--> Requesting optimal build from Koval Server...\"",
  "if command -v curl >/dev/null 2>&1; then",
  "    RESPONSE=$(curl -sSf -X POST \\",
  "        -H \"Content-Type: application/json\" \\",
  "        -H \"Authorization: Bearer $\x7bTOKEN\x7d\" \\",
  "        -d @\"$PROFILE_PATH\" \\",
  "        \"$\x7bSERVER_URL\x7d/forge/install?project=$\x7bPROJECT\x7d&ref=$\x7bREF\x7d\")",
  "else",
  "    RESPONSE=$(wget -qO- --post-file=\"$PROFILE_PATH\" \\",
  "        --header=\"Content-Type: application/json\" \\",
  "        --header=\"Authorization: Bearer $\x7bTOKEN\x7d\" \\",
  "        \"$\x7bSERVER_URL\x7d/forge/install?project=$\x7bPROJECT\x7d&ref=$\x7bREF\x7d\")",
  "fi",
  "",
  "STATUS=$(echo \"$RESPONSE\" | grep -o '\"status\":\"[^\"]*' | grep -o '[^\"]*$')",
  "",
  "if [ \"$STATUS\" = \"cached\" ]; then",
  "    DOWNLOAD_URL=$(echo \"$RESPONSE\" | grep -o '\"download_url\":\"[^\"]*' | grep -o '[^\"]*$')",
  "    EXPECTED_SHA=$(echo \"$RESPONSE\" | grep -o '\"sha256\":\"[^\"]*' | grep -o '[^\"]*$')",
  "    echo \"--> Found optimized cached build!\"",
  "elif [ \"$STATUS\" = \"building\" ]; then",
  "    JOB_ID=$(echo \"$RESPONSE\" | grep -o '\"job_id\":\"[^\"]*' | grep -o '[^\"]*$')",
  "    echo \"--> Build not cached. Enqueued build job: $\x7bJOB_ID\x7d\"",
  "    echo \"--> Waiting for compilation to finish...\"",
  "    ",
  "    while true; do",
  "        sleep 2",
  "        if command -v curl >/dev/null 2>&1; then",
  "            STATUS_RESP=$(curl -sSf -H \"Authorization: Bearer $\x7bTOKEN\x7d\" \"$\x7bSERVER_URL\x7d/build/$\x7bJOB_ID\x7d/status\")",
  "        else",
  "            STATUS_RESP=$(wget -qO- --header=\"Authorization: Bearer $\x7bTOKEN\x7d\" \"$\x7bSERVER_URL\x7d/build/$\x7bJOB_ID\x7d/status\")",
  "        fi",
  "        ",
  "        JOB_STATUS=$(echo \"$STATUS_RESP\" | grep -o '\"status\":\"[^\"]*' | grep -o '[^\"]*$')",
  "        ",
  "        if [ \"$JOB_STATUS\" = \"completed\" ] || [ \"$JOB_STATUS\" = \"done\" ]; then",
  "            DOWNLOAD_URL=\"/build/$\x7bJOB_ID\x7d/binary\"",
  "            # Get expected SHA from status response",
  "            EXPECTED_SHA=$(echo \"$STATUS_RESP\" | grep -o '\"artifact_sha256\":\"[^\"]*' | grep -o '[^\"]*$')",
  "            echo \"--> Build completed successfully!\"",
  "            break",
  "        elif [ \"$JOB_STATUS\" = \"failed\" ]; then",
  "            echo \"Error: Compilation job failed. Check server logs.\" >&2",
  "            exit 1",
  "        else",
  "            echo \"--> Build in progress (status: $\x7bJOB_STATUS\x7d)....\"",
  "        fi",
  "    done",
  "else",
  "    echo \"Error: Unexpected response from server: $\x7bRESPONSE\x7d\" >&2",
  "    exit 1",
  "fi",
  "",
  "# Ensure DOWNLOAD_URL is full URL",
  "case \"$DOWNLOAD_URL\" in",
  "    http://*|https://*)",
  "        FULL_DOWNLOAD_URL=\"$DOWNLOAD_URL\"",
  "        ;;",
  "    *)",
  "        FULL_DOWNLOAD_URL=\"$\x7bSERVER_URL\x7d$\x7bDOWNLOAD_URL\x7d\"",
  "        ;;",
  "esac",
  "",
  "echo \"--> Downloading optimized binary archive...\"",
  "BIN_PATH=\"$\x7bTMP_DIR\x7d/archive.tar.gz\"",
  "if command -v curl >/dev/null 2>&1; then",
  "    curl -sSfL -H \"Authorization: Bearer $\x7bTOKEN\x7d\" \"$FULL_DOWNLOAD_URL\" -o \"$BIN_PATH\"",
  "else",
  "    wget -qO \"$BIN_PATH\" --header=\"Authorization: Bearer $\x7bTOKEN\x7d\" \"$FULL_DOWNLOAD_URL\"",
  "fi",
  "",
  "# Verify SHA256 checksum if coreutils / sha256sum exists",
  "if [ -n \"$EXPECTED_SHA\" ] && [ \"$EXPECTED_SHA\" != \"null\" ]; then",
  "    if command -v sha256sum >/dev/null 2>&1; then",
  "        echo \"--> Verifying checksum...\"",
  "        ACTUAL_SHA=$(sha256sum \"$BIN_PATH\" | awk '\x7bprint $1\x7d')",
  "        if [ \"$ACTUAL_SHA\" != \"$EXPECTED_SHA\" ]; then",
  "            echo \"Error: Checksum verification failed.\" >&2",
  "            echo \"Expected: $\x7bEXPECTED_SHA\x7d\" >&2",
  "            echo \"Actual:   $\x7bACTUAL_SHA\x7d\" >&2",
  "            exit 1",
  "        fi",
  "        echo \"--> Checksum matches!\"",
  "    fi",
  "fi",
  "",
  "echo \"--> Extracting archive...\"",
  "EXTRACT_DIR=\"$\x7bTMP_DIR\x7d/extracted\"",
  "mkdir -p \"$EXTRACT_DIR\"",
  "tar -xzf \"$BIN_PATH\" -C \"$EXTRACT_DIR\"",
  "",
  "# Ask user where to install",
  "INSTALL_DIR=\"\"",
  "echo \"\"",
  "printf \"Install system-wide to /usr/local/bin (requires sudo)? [y/N]: \"",
  "read -r CONFIRM",
  "",
  "USE_SUDO=\"false\"",
  "if [ \"$CONFIRM\" = \"y\" ] || [ \"$CONFIRM\" = \"Y\" ]; then",
  "    INSTALL_DIR=\"/usr/local/bin\"",
  "    USE_SUDO=\"true\"",
  "else",
  "    INSTALL_DIR=\"$\x7bHOME\x7d/.local/bin\"",
  "    mkdir -p \"$INSTALL_DIR\"",
  "fi",
  "",
  "echo \"--> Installing binaries to $\x7bINSTALL_DIR\x7d...\"",
  "for f in \"$EXTRACT_DIR\"/*; do",
  "    if [ -f \"$f\" ]; then",
  "        fname=$(basename \"$f\")",
  "        chmod +x \"$f\"",
  "        if [ \"$USE_SUDO\" = \"true\" ]; then",
  "            echo \"--> Installing $\x7bfname\x7d to $\x7bINSTALL_DIR\x7d (using sudo)...\"",
  "            sudo cp \"$f\" \"$\x7bINSTALL_DIR\x7d/$\x7bfname\x7d\"",
  "        else",
  "            echo \"--> Installing $\x7bfname\x7d to $\x7bINSTALL_DIR\x7d...\"",
  "            cp \"$f\" \"$\x7bINSTALL_DIR\x7d/$\x7bfname\x7d\"",
  "        fi",
  "        echo \"--> Successfully installed: $\x7bINSTALL_DIR\x7d/$\x7bfname\x7d\"",
  "    fi",
  "done",
  "",
  "# Check if INSTALL_DIR is in PATH",
  "if [ \"$USE_SUDO\" = \"false\" ]; then",
  "    case \":$\x7bPATH\x7d:\" in",
  "        *:\"$\x7bINSTALL_DIR\x7d\":*)",
  "            ;;",
  "        *)",
  "            echo \"\"",
  "            echo \"WARNING: $\x7bINSTALL_DIR\x7d is not in your PATH environment variable.\"",
  "            echo \"To run installed command(s), add this to your shell profile (e.g. ~/.bashrc or ~/.zshrc):\"",
  "            echo \"  export PATH=\\\"\\$PATH:$\x7bINSTALL_DIR\x7d\\\"\"",
  "            ;;",
  "    esac",
  "fi",
  "",
  "echo \"\"",
  "echo \"Installation complete!\""
]

end Koval
